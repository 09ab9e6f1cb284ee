/-!
Lists as tables: each row stands for a key, and putting a row in replaces the row of its key.
-/

namespace PointLedger

/-- Puts a row into a table: in place of the first row that is the `same`, or else before the
first row that comes `after` it, or else at the end. -/
def upsert {α : Type} (same after : α → Bool) (row : α) : List α → List α
  | [] => [row]
  | r :: rest =>
    if same r then row :: rest
    else if after r then row :: r :: rest
    else r :: upsert same after row rest

end PointLedger
