import BoardLang.Reading.Reader

/-!
# Summaries

Checking a text reads all of it, makes sure that every number fits, and counts what there is. The
first error in the order of the text is the one that is reported.
-/

namespace BoardLang

structure Summary where
  tokens : Nat := 0
  identifiers : Nat := 0
  comments : Nat := 0
deriving DecidableEq, Repr

def Summary.describe (s : Summary) (file : String) : String :=
  file ++ ": ok (" ++ toString s.tokens ++ " tokens, " ++ toString s.identifiers ++
    " identifiers, " ++ toString s.comments ++ " comments)\n"

namespace Reader

/-- The counts with the token in view added to them. A number has to fit in 64 bits. -/
def tally (r : Reader) (counts : Summary) : Except SourceError Summary :=
  match r.currentKind with
  | some .ident =>
    match r.expectIdentifier with
    | .ok _ =>
      .ok { counts with tokens := counts.tokens + 1, identifiers := counts.identifiers + 1 }
    | .error e => .error e
  | some .int =>
    match r.expectInt with
    | .ok _ => .ok { counts with tokens := counts.tokens + 1 }
    | .error e => .error e
  | _ => .ok { counts with tokens := counts.tokens + 1 }

def summarise (r : Reader) (counts : Summary) : Except SourceError Summary :=
  match h : r.advance with
  | (.error e, _) => .error e
  | (.ok none, r') => .ok { counts with comments := r'.comments.length }
  | (.ok (some _), r') =>
    have := length_rest_advance_lt h
    match r'.tally counts with
    | .ok counts => summarise r' counts
    | .error e => .error e
termination_by r.stream.cursor.rest.length
decreasing_by assumption

end Reader

/-- The counts of `source`, or its first error. -/
def summary (d : Dialect) (source : String) : Except SourceError Summary :=
  (Reader.ofText d source).summarise {}

end BoardLang
