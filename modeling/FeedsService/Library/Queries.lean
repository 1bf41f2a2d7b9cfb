import FeedsService.Library.Selections
import Mathlib.Data.Int.Notation

/-!
# Queries that a program puts together

A query over one scan: conditions on named columns, an order and a limit.  A value stands in
the text as a number, or is bound to a parameter.  `ORDER BY` is a stable sort of the rows of
the scan that meet the conditions.
-/

namespace FeedsService.Library.Queries

inductive Operand
  | column (name : String)
  | number (value : ℤ)
  | parameter (name : String)
  deriving DecidableEq

inductive Comparison
  | eq
  | ge
  | le
  deriving DecidableEq

def Comparison.holds : Comparison → ℤ → ℤ → Bool
  | .eq, left, right => left = right
  | .ge, left, right => right ≤ left
  | .le, left, right => left ≤ right

structure Condition where
  column : String
  comparison : Comparison
  operand : Operand
  deriving DecidableEq

structure Order where
  column : String
  ascending : Bool
  deriving DecidableEq

structure Select where
  conditions : List Condition
  order : Option Order
  limit : Option Operand
  deriving DecidableEq

/-- What is bound to a parameter; without it the parameter is NULL. -/
abbrev Bindings := String → Option ℤ

universe u

/-- The columns of a scan. -/
abbrev Columns (ρ : Type u) := String → Option (ρ → ℤ)

variable {ρ : Type u} (columns : Columns ρ) (bindings : Bindings)

/-- The value in a row, if the query can be prepared. -/
def Operand.read : Operand → Option (ρ → Option ℤ)
  | .column name => (columns name).map fun value row => some (value row)
  | .number value => some fun _ => some value
  | .parameter name => some fun _ => bindings name

/-- A comparison with NULL does not hold. -/
def Condition.test (condition : Condition) : Option (ρ → Bool) := do
  let left ← columns condition.column
  let right ← condition.operand.read columns bindings
  return fun row => (right row).any (condition.comparison.holds (left row))

def conjunction : List Condition → Option (ρ → Bool)
  | [] => some fun _ => true
  | condition :: conditions => do
    let test ← condition.test columns bindings
    let tests ← conjunction conditions
    return fun row => test row && tests row

def Order.precedes (order : Order) : Option (ρ → ρ → Bool) :=
  (columns order.column).map fun value left right =>
    if order.ascending then value left ≤ value right else value right ≤ value left

/-- How many rows at most, all of them when it is negative; NULL is refused. -/
def Operand.asLimit : Operand → Option (Option ℕ)
  | .column _ => none
  | .number value => some (if value < 0 then none else some value.toNat)
  | .parameter name => (bindings name).map fun value => if value < 0 then none else some value.toNat

namespace Select

variable (query : Select)

/-- The names of the parameters in the text. -/
def parameters : List String :=
  (query.conditions.map Condition.operand ++ query.limit.toList).filterMap fun
    | .parameter name => some name
    | _ => none

/-- Binding values to parameters, which fails for a name that is not in the text. -/
def bind (values : List (String × ℤ)) : Option Bindings :=
  if values.all fun value => query.parameters.contains value.1 then
    some fun name => values.lookup name
  else
    none

def sorted (rows : List ρ) : Option (List ρ) :=
  match query.order with
  | none => some rows
  | some order => (order.precedes columns).map fun le => rows.mergeSort le

def limited (rows : List ρ) : Option (List ρ) :=
  match query.limit with
  | none => some rows
  | some limit => (limit.asLimit bindings).map fun limit => cut limit rows

/-- The rows of the scan that the query selects, in order. -/
def rows (scan : List ρ) : Option (List ρ) := do
  let keep ← conjunction columns bindings query.conditions
  let ordered ← query.sorted columns (scan.filter keep)
  query.limited bindings ordered

end Select

section Equations

variable {columns bindings}

theorem conjunction_append {left right : List Condition} {keep keep' : ρ → Bool}
    (hleft : conjunction columns bindings left = some keep)
    (hright : conjunction columns bindings right = some keep') :
    conjunction columns bindings (left ++ right) = some fun row => keep row && keep' row := by
  induction left generalizing keep with
  | nil =>
      cases hleft
      simpa only [List.nil_append, Bool.true_and] using hright
  | cons condition conditions ih =>
      obtain ⟨test, htest, tests, htests, hkeep⟩ :
          ∃ test, condition.test columns bindings = some test ∧ ∃ tests,
            conjunction columns bindings conditions = some tests ∧
            (fun row => test row && tests row) = keep := by
        simpa [conjunction, Option.bind_eq_some_iff] using hleft
      subst hkeep
      simp only [List.cons_append, conjunction, htest, ih htests, Option.bind_eq_bind,
        Option.bind_some, Option.pure_def, Bool.and_assoc]

/-- A condition on a value that is known when the query runs. -/
theorem conjunction_singleton {condition : Condition} {left : ρ → ℤ} {right : ℤ}
    (hcolumn : columns condition.column = some left)
    (hoperand : condition.operand.read columns bindings = some fun _ => some right) :
    conjunction columns bindings [condition] =
      some fun row => condition.comparison.holds (left row) right := by
  simp [conjunction, Condition.test, hcolumn, hoperand]

theorem read_parameter {name : String} {value : ℤ} (hbound : bindings name = some value) :
    (Operand.parameter name).read columns bindings = some fun _ => some value := by
  simp only [Operand.read, hbound]

/-- A query clause by clause. -/
theorem Select.rows_eq {query : Select} {keep : ρ → Bool} {scan ordered : List ρ}
    (hkeep : conjunction columns bindings query.conditions = some keep)
    (hordered : query.sorted columns (scan.filter keep) = some ordered) :
    query.rows columns bindings scan = query.limited bindings ordered := by
  simp only [Select.rows, hkeep, hordered, Option.bind_eq_bind, Option.bind_some]

end Equations

section Agreement

variable {columns bindings} {bindings' : Bindings} {query query' : Select}

/-- Two conditions that compare the same column with the same value. -/
structure Condition.Same (columns : Columns ρ) (bindings bindings' : Bindings)
    (condition condition' : Condition) : Prop where
  column : condition.column = condition'.column
  comparison : condition.comparison = condition'.comparison
  operand : condition.operand.read columns bindings = condition'.operand.read columns bindings'

theorem Condition.Same.test_eq {condition condition' : Condition}
    (h : condition.Same columns bindings bindings' condition') :
    condition.test columns bindings = condition'.test columns bindings' := by
  simp only [Condition.test, h.column, h.comparison, h.operand]

/-- A parameter stands for what is bound to it. -/
theorem Condition.same_of_bound {column name : String} {comparison : Comparison} {value : ℤ}
    (hbound : bindings name = some value) :
    Condition.Same columns bindings bindings' ⟨column, comparison, .parameter name⟩
      ⟨column, comparison, .number value⟩ where
  column := rfl
  comparison := rfl
  operand := read_parameter hbound

theorem Operand.asLimit_of_bound {name : String} {value : ℤ} (hbound : bindings name = some value) :
    (Operand.parameter name).asLimit bindings = (Operand.number value).asLimit bindings' := by
  simp only [Operand.asLimit, hbound, Option.map_some]

theorem conjunction_congr {conditions conditions' : List Condition}
    (h : List.Forall₂ (Condition.Same columns bindings bindings') conditions conditions') :
    conjunction columns bindings conditions = conjunction columns bindings' conditions' := by
  induction h with
  | nil => rfl
  | cons hhead _ ih => simp only [conjunction, hhead.test_eq, ih]

/-- Two queries that say the same, condition by condition. -/
structure Select.Same (columns : Columns ρ) (bindings bindings' : Bindings)
    (query query' : Select) : Prop where
  conditions : List.Forall₂ (Condition.Same columns bindings bindings')
    query.conditions query'.conditions
  order : query.order = query'.order
  limit : query.limit.map (Operand.asLimit bindings) = query'.limit.map (Operand.asLimit bindings')

theorem Select.Same.limited_eq (h : query.Same columns bindings bindings' query')
    (rows : List ρ) : query.limited bindings rows = query'.limited bindings' rows := by
  have hlimit := h.limit
  cases hleft : query.limit with
  | none =>
      cases hright : query'.limit with
      | none => simp only [Select.limited, hleft, hright]
      | some limit' => simp [hleft, hright] at hlimit
  | some limit =>
      cases hright : query'.limit with
      | none => simp [hleft, hright] at hlimit
      | some limit' =>
          simp only [hleft, hright, Option.map_some, Option.some.injEq] at hlimit
          simp only [Select.limited, hleft, hright, hlimit]

/-- They select the same rows in the same order. -/
theorem Select.Same.rows_eq (h : query.Same columns bindings bindings' query') (scan : List ρ) :
    query.rows columns bindings scan = query'.rows columns bindings' scan := by
  have hsorted : query.sorted columns = query'.sorted columns := by
    funext rows
    simp only [Select.sorted, h.order]
  simp only [Select.rows, conjunction_congr h.conditions, hsorted, h.limited_eq]

end Agreement

end FeedsService.Library.Queries
