import SqlSelect.Connective
import SqlSelect.Fragment

/-!
# Junctions

A `Junction` is some conditions and the connective that joins them.

* `Junction.render`: the conditions with the keyword between each two;
* `Junction.renderAll`: several junctions as one condition. A lone one stands as it is; of several
  each is put in parentheses, and behind the first each follows its own keyword.
-/

namespace SqlSelect

/-- Conditions and the connective that joins them. -/
structure Junction where
  connective : Connective
  parts : List Fragment

namespace Junction

/-- The keyword of a connective between two conditions. -/
def separator (k : Connective) : String := " " ++ k.keyword ++ " "

/-- The conditions with the keyword between each two. -/
def render (j : Junction) : Fragment := Fragment.join (separator j.connective) j.parts

/-- Junctions in parentheses, each behind its keyword. -/
def renderRest : List Junction → Fragment
  | [] => []
  | j :: js => .text (separator j.connective) :: (j.render.enclosed ++ renderRest js)

/-- Junctions with conditions as one condition. -/
def renderNonempty : List Junction → Fragment
  | [] => []
  | [j] => j.render
  | j :: js => j.render.enclosed ++ renderRest js

/-- Junctions as one condition; those without conditions are left out. -/
def renderAll (js : List Junction) : Fragment :=
  renderNonempty (js.filter fun j => !j.parts.isEmpty)

@[simp] theorem render_singleton (k : Connective) (f : Fragment) :
    (Junction.mk k [f]).render = f := rfl

/-- A lone junction stands as it is. -/
theorem renderAll_singleton {j : Junction} (h : j.parts ≠ []) : renderAll [j] = j.render := by
  simp [renderAll, h, renderNonempty]

end Junction

end SqlSelect
