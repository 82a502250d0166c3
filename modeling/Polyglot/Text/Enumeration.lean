/-!
# Enumerations in prose

`enumerate` joins items as a sentence does, such as `de, fr and it`.
-/

namespace Polyglot

/-- The items in prose. When there are more than `limit`, the first `limit` stand for all and an
ellipsis says so; one item alone is always shown. -/
def enumerate (items : List String) (limit : Nat) : String :=
  match items with
  | [] => ""
  | [item] => item
  | _ =>
    if items.length ≤ limit then
      ", ".intercalate items.dropLast ++ " and " ++ (items.getLast?.getD "")
    else
      ", ".intercalate (items.take limit) ++ " and …"

end Polyglot
