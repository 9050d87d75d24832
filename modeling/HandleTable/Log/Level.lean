import HandleTable.Text.Number

/-!
# Levels of log events

How much of a log is shown, from nothing to everything.
-/

namespace HandleTable.Log

/-- How much is shown: nothing, or errors and ever more talkative events. -/
inductive Level where
  | off
  | error
  | warn
  | info
  | debug
  | trace
deriving DecidableEq, Repr

namespace Level

/-- The place of a level, from silent to talkative. -/
def rank : Level → Nat
  | off => 0
  | error => 1
  | warn => 2
  | info => 3
  | debug => 4
  | trace => 5

/-- The names of the levels, which are read in either case. -/
def names : List (String × Level) :=
  [("off", off), ("error", error), ("warn", warn), ("info", info), ("debug", debug),
   ("trace", trace)]

/-- The level that a text names, by its name or by its place. -/
def read? (text : String) : Option Level :=
  let byPlace := (Text.unsigned? text).bind fun place =>
    (names.map Prod.snd).find? fun level => level.rank == place
  byPlace <|> names.lookup (String.ofList (text.toList.map Char.toLower))

end Level

end HandleTable.Log
