/-!
# Notices

What the program tells its user on the way, apart from its answers.
-/
namespace Breadboard

inductive Notice.Level where
  | info
  | warn
  deriving DecidableEq, Repr

def Notice.Level.label : Notice.Level → String
  | info => "INFO"
  | warn => "WARN"

structure Notice where
  level : Notice.Level
  message : String
  deriving DecidableEq, Repr

namespace Notice

def info (message : String) : Notice := ⟨.info, message⟩

def warn (message : String) : Notice := ⟨.warn, message⟩

def line (n : Notice) : String := s!"{n.level.label} {n.message}"

end Notice

end Breadboard
