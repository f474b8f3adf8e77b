import Switchboard.Text.Blank

/-!
# Documentation

How a summary given with a declaration becomes the documentation a client
reads. Blanks around a summary mean nothing, and a summary of blanks alone is
no summary.

## Main definitions

* `documentation`: The published form of an optional summary.
-/

namespace Switchboard

/-- The published form of a summary: framed by the tags that documentation
    tools expect, or empty if there is nothing to say. -/
def documentation (summary : Option String) : String :=
  match trimBlank (summary.getD "").toList with
  | [] => ""
  | text => "<doc>\n  <summary>\n" ++ String.ofList text ++ "\n</summary>\n</doc>"

end Switchboard
