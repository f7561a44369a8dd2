import BoardLang.Lexical.TokenStream
import BoardLang.Reading.Reader

/-!
# Sessions

A user of a stream or of a reader makes calls one after the other and sees the replies. A `session`
is any list of calls; what holds of every reply and of the state at the end is proved from what one
call does (`session_induction`).
-/

namespace BoardLang

variable {σ κ ρ : Type}

def session (step : σ → κ → ρ × σ) : σ → List κ → List ρ × σ
  | s, [] => ([], s)
  | s, k :: ks =>
    let (reply, s') := step s k
    let (replies, last) := session step s' ks
    (reply :: replies, last)

theorem session_cons (step : σ → κ → ρ × σ) (s : σ) (k : κ) (ks : List κ) :
    session step s (k :: ks) =
      ((step s k).1 :: (session step (step s k).2 ks).1, (session step (step s k).2 ks).2) := rfl

/-- A session that goes on is the session so far and then the rest of it. -/
theorem session_append (step : σ → κ → ρ × σ) (s : σ) (ks js : List κ) :
    session step s (ks ++ js) =
      ((session step s ks).1 ++ (session step (session step s ks).2 js).1,
        (session step (session step s ks).2 js).2) := by
  induction ks generalizing s with
  | nil => rfl
  | cons k ks ih => rw [List.cons_append, session_cons, ih, session_cons, List.cons_append]

/-- The reply to a call is the one that the state after the calls before it gives. -/
theorem getElem?_session (step : σ → κ → ρ × σ) (s : σ) (ks : List κ) (i : Nat) :
    (session step s ks).1[i]? = ks[i]?.map fun k => (step (session step s (ks.take i)).2 k).1 := by
  induction ks generalizing s i with
  | nil => rfl
  | cons k ks ih =>
    cases i with
    | zero => rfl
    | succ i =>
      rw [session_cons, List.take_succ_cons, session_cons]
      exact ih (step s k).2 i

/-- What every call keeps holds at the end, and what every call replies with holds of all replies. -/
theorem session_induction {step : σ → κ → ρ × σ} (Inv : σ → Prop) (Good : ρ → Prop)
    (hstep : ∀ s k, Inv s → Good (step s k).1 ∧ Inv (step s k).2) {s : σ} (hs : Inv s) (ks : List κ) :
    (∀ r ∈ (session step s ks).1, Good r) ∧ Inv (session step s ks).2 := by
  induction ks generalizing s with
  | nil => exact ⟨by simp [session], hs⟩
  | cons k ks ih =>
    obtain ⟨hreply, hs'⟩ := hstep s k hs
    obtain ⟨hreplies, hlast⟩ := ih hs'
    rw [session_cons]
    refine ⟨?_, hlast⟩
    intro r hr
    rcases List.mem_cons.mp hr with rfl | hr
    · exact hreply
    · exact hreplies r hr

namespace TokenStream

/-- What can be asked of a stream. -/
inductive Call where
  | scan
  | next
  | pos
  | comments
  | takeComments

inductive Reply where
  | answer (r : Except ScanError Token)
  | next (r : Option (Except ScanError Token))
  | pos (p : Position)
  | comments (cs : List Comment)

def call (s : TokenStream) : Call → Reply × TokenStream
  | .scan => (.answer s.scan.1, s.scan.2)
  | .next => (.next s.next?.1, s.next?.2)
  | .pos => (.pos s.pos, s)
  | .comments => (.comments s.comments, s)
  | .takeComments => (.comments s.takeComments.1, s.takeComments.2)

end TokenStream

namespace Reader

inductive Call where
  | advance
  | current
  | currentKind
  | isAtEnd
  | pos
  | comments
  | expect (kind : TokenKind)
  | expectIdentifier
  | expectInt
  | expectPassive (component : Passive)

inductive Reply where
  | advanced (r : Except SourceError (Option Token))
  | current (t : Option Token)
  | currentKind (k : Option TokenKind)
  | isAtEnd (b : Bool)
  | pos (p : Position)
  | comments (cs : List Comment)
  | token (r : Except SourceError Token)
  | identifier (r : Except SourceError Identifier)
  | int (r : Except SourceError IntLiteral)
  | passive (r : Except SourceError PassiveExpr)

/-- Only `advance` changes a reader. -/
def call (r : Reader) : Call → Reply × Reader
  | .advance => (.advanced r.advance.1, r.advance.2)
  | .current => (.current r.current, r)
  | .currentKind => (.currentKind r.currentKind, r)
  | .isAtEnd => (.isAtEnd r.isAtEnd, r)
  | .pos => (.pos r.pos, r)
  | .comments => (.comments r.comments, r)
  | .expect kind => (.token (r.expect kind), r)
  | .expectIdentifier => (.identifier r.expectIdentifier, r)
  | .expectInt => (.int r.expectInt, r)
  | .expectPassive component => (.passive (r.expectPassive component), r)

end Reader

end BoardLang
