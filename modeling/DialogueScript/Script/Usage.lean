/-
# How often actions are used

The usage of a script counts, for every action, the action lines that have it; lines that cannot be
parsed do not count.  Usages are catalogues, so their actions stand in byte order, and the usages of
several scripts are merged by adding the counts.  Both are loops that add to what has been counted so
far.
-/
import DialogueScript.Script.Line
import DialogueScript.Text.Catalogue

namespace DialogueScript

/-- Counts of lines under the names of actions. -/
abbrev Usage := Catalogue Nat

namespace Usage

/-- The count of an action; zero if it is not used. -/
def count (usage : Usage) (action : String) : Nat :=
  (usage.find? action).getD 0

/-- The usage with `n` further lines of an action. -/
def add (action : String) (n : Nat) (usage : Usage) : Usage :=
  usage.alter action fun old => old.getD 0 + n

/-- The usage of two sets of lines together: the counts of the second are added to the first one by
one. -/
def merge (usage usage' : Usage) : Usage :=
  usage'.entries.foldl (fun sum (action, n) => add action n sum) usage

end Usage

/-- The action of a script line, if it is an action line that can be parsed. -/
def Line.action? (line : Line) : Option String :=
  match line.parse? with
  | some (.ok parsed) => some parsed.action
  | _ => none

/-- The usage of a script. -/
def scriptUsage (text : String) : Usage :=
  ((scriptLines text).filterMap Line.action?).foldl (fun usage action => Usage.add action 1 usage)
    Catalogue.empty

end DialogueScript
