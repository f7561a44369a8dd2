import BoardLang.Lexical.Cursor
import BoardLang.Lexical.Piece

/-!
# Token streams

A token stream reads a text from the front. `scan` passes over blanks and comments, keeps the
comments, and stops at the first piece that is a token or an error. It can be asked again after an
error and goes on from where it stands. `next?` is the reader for loops: it yields one error at
most and nothing after it.

* `scan_eq` unfolds one step of `scan`.
* `length_rest_scan_lt`: reading a token uses up text, so reading all tokens comes to an end.
-/

namespace BoardLang

/-- A text that is being read, and the comments met in it so far. -/
structure TokenStream where
  dialect : Dialect
  cursor : Cursor
  /-- The comments passed and not yet taken, the nearest one first. -/
  skipped : List Comment
  /-- Whether `next?` has met an error or the end. -/
  finished : Bool

namespace TokenStream

def ofText (d : Dialect) (source : String) : TokenStream :=
  ⟨d, Cursor.ofText source.toList, [], false⟩

def pos (s : TokenStream) : Position := s.cursor.pos

/-- The comments passed and not yet taken, in the order of the text. -/
def comments (s : TokenStream) : List Comment := s.skipped.reverse

/-- The stream after the piece `p`, which is kept if it is a comment. -/
def pass (s : TokenStream) (p : Piece) : TokenStream :=
  { s with
    cursor := s.cursor.move p.text.length
    skipped :=
      match p.comment? s.cursor.pos with
      | some comment => comment :: s.skipped
      | none => s.skipped }

@[simp] theorem dialect_pass (s : TokenStream) (p : Piece) : (s.pass p).dialect = s.dialect := rfl

@[simp] theorem cursor_pass (s : TokenStream) (p : Piece) :
    (s.pass p).cursor = s.cursor.move p.text.length := rfl

@[simp] theorem comments_pass (s : TokenStream) (p : Piece) :
    (s.pass p).comments = s.comments ++ (p.comment? s.cursor.pos).toList := by
  unfold comments pass
  cases p.comment? s.cursor.pos <;> simp

@[simp] theorem finished_pass (s : TokenStream) (p : Piece) :
    (s.pass p).finished = s.finished := rfl

theorem length_rest_pass_lt {s : TokenStream} {p : Piece} (hs : s.cursor.rest ≠ [])
    (hp : p.text ≠ []) : (s.pass p).cursor.rest.length < s.cursor.rest.length := by
  have hs := List.length_pos_iff.mpr hs
  have hp := List.length_pos_iff.mpr hp
  simp only [cursor_pass, Cursor.rest_move, List.length_drop]
  omega

theorem rest_ne_nil_of_cut {s : TokenStream} {p : Piece}
    (h : Piece.cut s.dialect s.cursor.rest = some p) : s.cursor.rest ≠ [] := by
  intro hnil
  simp [hnil, Piece.cut] at h

/-! ## Reading -/

/-- The next token or error, and the stream after it. -/
def scan (s : TokenStream) : Except ScanError Token × TokenStream :=
  match hc : Piece.cut s.dialect s.cursor.rest with
  | none => (.error ⟨.endOfInput, s.cursor.pos⟩, s)
  | some p =>
    match ho : p.outcome? s.cursor.pos with
    | some outcome => (outcome, s.pass p)
    | none =>
      have := length_rest_pass_lt (rest_ne_nil_of_cut hc)
        (Piece.text_ne_nil_of_outcome?_eq_none ho)
      scan (s.pass p)
termination_by s.cursor.rest.length
decreasing_by assumption

theorem scan_eq (s : TokenStream) :
    s.scan =
      match Piece.cut s.dialect s.cursor.rest with
      | none => (.error ⟨.endOfInput, s.cursor.pos⟩, s)
      | some p =>
        match p.outcome? s.cursor.pos with
        | some outcome => (outcome, s.pass p)
        | none => scan (s.pass p) := by
  rw [scan]
  split <;> rename_i hc <;> simp only [hc]
  split <;> rename_i ho <;> simp only [ho]

/-- The next token or error for a loop over the stream, if there is one. After an error or the
end there is none, and the stream stays as it is. -/
def next? (s : TokenStream) : Option (Except ScanError Token) × TokenStream :=
  if s.finished then (none, s)
  else
    match s.scan with
    | (.ok token, s') => (some (.ok token), s')
    | (.error e, s') =>
      (if e.isEnd then none else some (.error e), { s' with finished := true })

/-- The comments kept so far, and the stream without them. -/
def takeComments (s : TokenStream) : List Comment × TokenStream :=
  (s.comments, { s with skipped := [] })

/-- The stream after `n` scans, whatever came out of them. -/
def afterScans (s : TokenStream) : Nat → TokenStream
  | 0 => s
  | n + 1 => afterScans s.scan.2 n

/-! ## Reading comes to an end -/

theorem length_rest_scan_lt {s s' : TokenStream} {t : Token} (h : s.scan = (.ok t, s')) :
    s'.cursor.rest.length < s.cursor.rest.length := by
  fun_induction scan s with
  | case1 s hc => simp at h
  | case2 s p hc outcome ho =>
    obtain ⟨rfl, rfl⟩ := Prod.mk.inj h
    exact length_rest_pass_lt (rest_ne_nil_of_cut hc) (Piece.text_ne_nil_of_outcome?_eq_ok hc ho)
  | case3 s p hc ho hlt ih => exact Nat.lt_trans (ih h) hlt

theorem length_rest_next?_lt {s s' : TokenStream} {t : Token}
    (h : s.next? = (some (.ok t), s')) : s'.cursor.rest.length < s.cursor.rest.length := by
  unfold next? at h
  split at h
  · simp at h
  · split at h
    · rename_i token s'' hs
      obtain ⟨ht, rfl⟩ := Prod.mk.inj h
      exact length_rest_scan_lt hs
    · rename_i e s'' hs
      have he := (Prod.mk.inj h).1
      split at he <;> simp at he

end TokenStream

end BoardLang
