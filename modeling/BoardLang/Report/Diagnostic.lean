import BoardLang.Reading.SourceError
import BoardLang.Text.Excerpt

/-!
# Diagnostics

An error as people read it: the file, the place, what is wrong, and below it the line in question
with a caret under the place.
-/

namespace BoardLang.SourceError

def render (e : SourceError) (file source : String) : String :=
  "error: " ++ file ++ ":" ++ e.message ++ "\n" ++ Text.excerpt source.toList e.pos

end BoardLang.SourceError
