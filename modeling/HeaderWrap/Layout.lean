/-! Laying out code: lines at a nesting level, each level one indent unit deep. -/
namespace HeaderWrap

structure Layout where
  unit : String
  level : Nat
  text : String
  deriving DecidableEq, Repr

namespace Layout

def start (unit : String) : Layout := ⟨unit, 0, ""⟩

def defaultUnit : String := "    "

def indentation (unit : String) (level : Nat) : String := String.join (List.replicate level unit)

def line (l : Layout) (s : String) : Layout :=
  { l with text := l.text ++ indentation l.unit l.level ++ s ++ "\n" }

def indent (l : Layout) : Layout := { l with level := l.level + 1 }

/-- Goes one level out; at the outermost level nothing changes. -/
def dedent (l : Layout) : Layout := { l with level := l.level - 1 }

def block (l : Layout) (header close : String) (body : Layout → Layout) : Layout :=
  (body (l.line header).indent).dedent.line close

/-- The text without its final newline. -/
def fragment (l : Layout) : String :=
  match l.text.toList.getLast? with
  | some '\n' => String.ofList l.text.toList.dropLast
  | _ => l.text

inductive Step where
  | line (text : String)
  | indent
  | dedent
  | block (header close : String) (body : List Step)
  deriving Inhabited

mutual

def take (l : Layout) : Step → Layout
  | .line s => l.line s
  | .indent => l.indent
  | .dedent => l.dedent
  | .block header close body => l.block header close fun l => l.run body

def run (l : Layout) : List Step → Layout
  | [] => l
  | step :: steps => (l.take step).run steps

end

end Layout
end HeaderWrap
