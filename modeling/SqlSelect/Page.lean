import SqlSelect.Clause
import SqlSelect.Error

/-!
# Pages

`PageRequest.toLimit` is the limit that a page comes to. Pages are counted from 1, and smaller
numbers mean the first one. A page without a size of its own takes the count of a plain limit, or
else the standard size. The first row of the page must have a number of 64 bits.
-/

namespace SqlSelect

namespace PageRequest

/-- The number of the page, from 1. -/
def index (p : PageRequest) : Nat := (max p.number.toInt 1).toNat

/-- The number of rows on the page. -/
def rows (p : PageRequest) (limit : Option Limit) (standard : UInt64) : Nat :=
  if 0 < p.size.toInt then p.size.toInt.toNat
  else
    match limit with
    | some ⟨none, count⟩ => if count = 0 then standard.toNat else count.toNat
    | _ => standard.toNat

/-- The limit that the page comes to. -/
def toLimit (p : PageRequest) (limit : Option Limit) (standard : UInt64) : Except Fault Limit :=
  let rows := p.rows limit standard
  let offset := rows * (p.index - 1)
  if offset < UInt64.size then .ok ⟨some (UInt64.ofNat offset), UInt64.ofNat rows⟩
  else .error (.pageOverflow p.number.toInt rows)

end PageRequest

end SqlSelect
