/-!
# Reports

A report is a sequence of texts, each in a style. On a terminal that shows colour a style is
switched on before its text and all styles are switched off after it; elsewhere only the texts are
written.
-/

namespace Coupling

/-- How a text is shown. -/
inductive Style where
  /-- As it is. -/
  | plain
  | bold
  | yellow
  | boldRed
  | boldGreen
  | boldYellow
deriving DecidableEq, Repr

/-- The parameters of the control sequence that switches a style on. -/
def Style.parameters? : Style → Option String
  | .plain => none
  | .bold => some "1"
  | .yellow => some "33"
  | .boldRed => some "1;31"
  | .boldGreen => some "1;32"
  | .boldYellow => some "1;33"

/-- A text in a style. -/
structure Span where
  /-- How the text is shown. -/
  style : Style
  text : String
deriving DecidableEq, Repr

/-- Texts in their styles. -/
abbrev Report := List Span

/-- The control sequence with the given parameters. -/
def escapeCode (parameters : String) : String :=
  "\x1b[" ++ parameters ++ "m"

/-- A span as it is written. -/
def Span.render (colour : Bool) (span : Span) : String :=
  match colour, span.style.parameters? with
  | true, some parameters => escapeCode parameters ++ span.text ++ escapeCode "0"
  | _, _ => span.text

namespace Report

/-- A plain text. -/
def text (content : String) : Report := [⟨.plain, content⟩]

/-- A text in a style. -/
def styled (style : Style) (content : String) : Report := [⟨style, content⟩]

/-- A report as it is written. -/
def render (colour : Bool) (report : Report) : String :=
  String.join (report.map (Span.render colour))

end Report

end Coupling
