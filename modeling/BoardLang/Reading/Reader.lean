import BoardLang.Lexical.TokenStream
import BoardLang.Reading.Leaf
import BoardLang.Reading.SourceError
import BoardLang.Text.Decimal

/-!
# Reading with one token in view

A reader holds one token of a stream in view. `advance` brings the next one into view; the
`expect` functions look at it and change nothing. Once the stream has ended or failed, the reader
does not touch it again.

* `length_rest_advance_lt`: a token that comes into view uses up text.
-/

namespace BoardLang

/-- What a reader has in view. -/
inductive Lookahead where
  | unread
  | token (t : Token)
  | ended
  /-- The text could not be read on. -/
  | failed
deriving DecidableEq, Repr

structure Reader where
  stream : TokenStream
  view : Lookahead

namespace Reader

/-- A reader that goes on with `s` from where it stands. -/
def ofStream (s : TokenStream) : Reader := ⟨s, .unread⟩

def ofText (d : Dialect) (source : String) : Reader := ofStream (TokenStream.ofText d source)

def current (r : Reader) : Option Token :=
  match r.view with
  | .token t => some t
  | .unread | .ended | .failed => none

def currentKind (r : Reader) : Option TokenKind := r.current.map Token.kind

def isAtEnd (r : Reader) : Bool := r.view = .ended

/-- Where the token in view begins, or else where the stream stands. -/
def pos (r : Reader) : Position :=
  match r.current with
  | some t => t.span.start
  | none => r.stream.pos

def comments (r : Reader) : List Comment := r.stream.comments

/-- Scans the stream and brings what comes out of it into view. -/
def load (r : Reader) : Except SourceError (Option Token) × Reader :=
  match r.stream.scan with
  | (.ok t, s) => (.ok (some t), ⟨s, .token t⟩)
  | (.error e, s) =>
    if e.isEnd then (.ok none, ⟨s, .ended⟩) else (.error (.scan e), ⟨s, .failed⟩)

/-- Brings the next token into view. At the end of the text there is none; an error is reported
once, and after it there is no token any more. -/
def advance (r : Reader) : Except SourceError (Option Token) × Reader :=
  match r.view with
  | .ended | .failed => (.ok none, r)
  | .unread | .token _ => r.load

/-! ## Looking at the token in view -/

/-- The token in view, if it is of the kind `expected`. -/
def expect (r : Reader) (expected : TokenKind) : Except SourceError Token :=
  match r.current with
  | some t => if t.kind = expected then .ok t else .error (.unexpected expected (some t.kind) r.pos)
  | none => .error (.unexpected expected none r.pos)

def expectIdentifier (r : Reader) : Except SourceError Identifier :=
  match r.expect .ident with
  | .ok t => .ok ⟨t⟩
  | .error e => .error e

/-- The token in view as a number of 64 bits. -/
def expectInt (r : Reader) : Except SourceError IntLiteral :=
  match r.expect .int with
  | .ok t =>
    match Text.Decimal.ofDigits? t.literal.toList with
    | some value => .ok ⟨t, value⟩
    | none => .error (.overflow t.literal t.span.start)
  | .error e => .error e

def expectPassive (r : Reader) (component : Passive) : Except SourceError PassiveExpr :=
  match r.expectInt with
  | .ok n => .ok (.ofInt component n)
  | .error e => .error e

/-! ## Reading comes to an end -/

theorem length_rest_load_lt {r r' : Reader} {t : Token} (h : r.load = (.ok (some t), r')) :
    r'.stream.cursor.rest.length < r.stream.cursor.rest.length := by
  unfold load at h
  split at h
  · rename_i t' s hs
    obtain ⟨_, rfl⟩ := Prod.mk.inj h
    exact TokenStream.length_rest_scan_lt hs
  · split at h <;> simp at h

theorem length_rest_advance_lt {r r' : Reader} {t : Token}
    (h : r.advance = (.ok (some t), r')) :
    r'.stream.cursor.rest.length < r.stream.cursor.rest.length := by
  unfold advance at h
  split at h
  · simp at h
  · simp at h
  · exact length_rest_load_lt h
  · exact length_rest_load_lt h

end Reader

end BoardLang
