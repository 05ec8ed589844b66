/-!
The lines that the management commands print. A line for the reader has a mark and colours; a line
for other programs has neither.
-/

namespace ContainerApplets

inductive ReportLine
  | plain (text : String)
  | success (text : String)
  | failure (text : String)
  | warning (text : String)
  | note (text : String)
  | item (text : String)
  | pair (key value : String)
  | hint (text : String)
  deriving DecidableEq

namespace ReportLine

inductive Style
  | bold
  | dimmed
  | red
  | green
  | yellow
  | cyan

namespace Style

def code (number : String) : String := "\x1b[" ++ number ++ "m"

def on : Style → String
  | .bold => code "1"
  | .dimmed => code "2"
  | .red => code "31"
  | .green => code "32"
  | .yellow => code "33"
  | .cyan => code "36"

/-- Weights are ended by the full reset and colours by the default colour. -/
def off : Style → String
  | .bold | .dimmed => code "0"
  | _ => code "39"

def apply (style : Style) (text : String) : String := style.on ++ text ++ style.off

end Style

def padEnd (width : Nat) (text : String) : String :=
  text ++ String.ofList (List.replicate (width - text.length) ' ')

def arrow : String := Style.cyan.apply "→"

def text : ReportLine → String
  | .plain text => text
  | .success text => Style.bold.apply (Style.green.apply "✓") ++ " " ++ text
  | .failure text => Style.bold.apply (Style.red.apply "✗") ++ " " ++ Style.red.apply text
  | .warning text => Style.yellow.apply "⚠" ++ " " ++ text
  | .note text => arrow ++ " " ++ Style.dimmed.apply text
  | .item text => "  " ++ text
  | .pair key value => "  " ++ Style.cyan.apply (padEnd 14 (key ++ ":")) ++ " " ++ value
  | .hint text => "  " ++ arrow ++ " " ++ text

end ReportLine

end ContainerApplets
