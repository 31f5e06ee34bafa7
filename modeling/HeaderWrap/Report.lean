/-! Reports: what a command has to say, line by line, and how it looks on a terminal. -/
namespace HeaderWrap

inductive ReportLine where
  | heading (text : String)
  | pair (key value : String)
  | item (text : String)
  | added (text : String)
  | error (text : String)
  | warning (text : String)
  | divider (label : String)
  | plain (text : String)
  | blank
  deriving DecidableEq, Repr

namespace ReportLine

private def isComplaint : ReportLine → Bool
  | error _ | warning _ => true
  | _ => false

def display : ReportLine → String
  | heading text => text ++ ":"
  | pair key value => "  " ++ key ++ ": " ++ value
  | item text => "  - " ++ text
  | added text => "  + " ++ text
  | error text => "error: " ++ text
  | warning text => "warning: " ++ text
  | divider label => "── " ++ label ++ " ──"
  | plain text => text
  | blank => ""

end ReportLine

abbrev Report := List ReportLine

namespace Report

def text (r : Report) : String := String.join (r.map fun line => line.display ++ "\n")

def output (r : Report) : String := text (r.filter (!·.isComplaint))

def complaints (r : Report) : String := text (r.filter (·.isComplaint))

end Report
end HeaderWrap
