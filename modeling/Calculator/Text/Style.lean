/-!
# Styles

Texts in a style, as terminals understand them.
-/

namespace Calculator.Text

/-- A text between the codes that turn a style on and off, if styles are shown at all. -/
def styled (shown : Bool) (code text : String) : String :=
  if shown then "\x1b[" ++ code ++ "m" ++ text ++ "\x1b[0m" else text

def bold (shown : Bool) (text : String) : String := styled shown "1" text

end Calculator.Text
