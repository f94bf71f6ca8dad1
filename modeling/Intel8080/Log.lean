/-!
# Log entries

What hosts and the scheduler have to tell besides their results. An entry has a
level, by which a reader may filter, and a text.
-/

namespace Intel8080.Log

/-- The importance of an entry. -/
inductive Level where
  | info | debug | trace
  deriving DecidableEq, Repr, Inhabited

/-- The name of a level. -/
def Level.text : Level → String
  | info => "INFO"
  | debug => "DEBUG"
  | trace => "TRACE"

/-- Whether entries of a level are shown to a reader who wants the most important
ones and, if so asked, debugging entries or trace entries as well. -/
def Level.isShown (debugging tracing : Bool) : Level → Bool
  | info => true
  | debug => debugging
  | trace => tracing

/-- A message of a certain importance. -/
structure Entry where
  level : Level
  text : String
  deriving DecidableEq, Repr, Inhabited

/-- A named number behind a message. -/
def field (name : String) (value : Nat) : String :=
  " " ++ name ++ "=" ++ toString value

/-- An entry as one line. -/
def Entry.line (entry : Entry) : String :=
  entry.level.text ++ " " ++ entry.text

/-- Puts marked entries into a journal that was kept independently of them. A mark
tells how long the journal was when its entry arose; marks are in ascending
order. -/
def interleave (position : Nat) (journal : List Entry) : List (Nat × Entry) → List Entry
  | [] => journal
  | (mark, entry) :: marks =>
    let earlier := mark - position
    journal.take earlier ++ entry :: interleave (max mark position) (journal.drop earlier) marks

end Intel8080.Log
