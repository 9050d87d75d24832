/-!
# Records as text

A record is written as its name and its fields in braces, either all on one
line or with a line for each field.
-/

namespace HandleTable.Text

/-- A record on one line, as in `Pair { first: 1, second: 2 }`. -/
def recordLine (name : String) (fields : List (String × String)) : String :=
  name ++ " \x7b " ++ ", ".intercalate (fields.map fun field => field.1 ++ ": " ++ field.2)
    ++ " \x7d"

/-- A record with a line for each field, each with a comma after it. -/
def recordBlock (name : String) (fields : List (String × String)) : String :=
  name ++ " \x7b\n" ++ String.join (fields.map fun field =>
    "    " ++ field.1 ++ ": " ++ field.2 ++ ",\n") ++ "\x7d"

end HandleTable.Text
