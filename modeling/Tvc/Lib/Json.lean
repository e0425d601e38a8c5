import Mathlib.Data.List.Nodup
import Tvc.Lib.Binary64

/-!
# Values of documents

A document that was read is a value of numbers, texts, lists and objects. Integers and doubles are apart, but they are
compared by what they are worth, and so are truth values, which count as 0 and 1. Objects are compared without regard
to the order of their keys.
-/

/-- A value of a document. -/
inductive Json
  | null
  | bool (value : Bool)
  | int (value : ℤ)
  | float (value : Binary64.Pattern)
  | str (value : List Char)
  | arr (items : List Json)
  | obj (fields : List (String × Json))

namespace Json

/-- The value of a key, if the value is an object with that key. -/
def get? (key : String) : Json → Option Json
  | .obj fields => fields.lookup key
  | _ => none

/-- The value of a key, or `null`. -/
def get (j : Json) (key : String) : Json := (j.get? key).getD .null

/-- What a number is worth, in units of the least double. -/
inductive Worth
  | units (n : ℤ)
  | infinite (negative : Bool)
  deriving DecidableEq

/-- What a value is worth, if it is a number. -/
def worth : Json → Option Worth
  | .bool b => some (.units (b.toNat * Binary64.one))
  | .int n => some (.units (n * Binary64.one))
  | .float x =>
    if Binary64.isFinite x then some (.units (Binary64.value x))
    else if Binary64.isNaN x then none
    else some (.infinite (Binary64.negative x))
  | _ => none

/-- Doubles that are at most each other are worth the same. -/
theorem worth_of_le {x y : Binary64.Pattern} (hx : Binary64.le x y = true) (hy : Binary64.le y x = true) :
    (Json.float x).worth = (Json.float y).worth := by
  have hfinite (z : Binary64.Pattern) : Binary64.isFinite z = (!Binary64.isNaN z && !Binary64.isInf z) := by
    unfold Binary64.isFinite Binary64.isNaN Binary64.isInf
    simp only [bne]
    cases Binary64.exponent z == 2047 <;> cases Binary64.fraction z == 0 <;> rfl
  simp only [Binary64.le, Bool.and_eq_true, Bool.not_eq_true'] at hx hy
  obtain ⟨⟨hxn, hyn⟩, hyx⟩ := hx
  obtain ⟨-, hxy⟩ := hy
  simp only [worth, hfinite, hxn, hyn]
  simp only [Binary64.lt, hxn, hyn] at hyx hxy
  cases hxi : Binary64.isInf x <;> cases hyi : Binary64.isInf y <;> simp only [hxi, hyi] at hyx hxy ⊢
  · have heq : Binary64.value x = Binary64.value y := by
      simp only [Bool.or_self, Bool.false_eq_true, if_false, decide_eq_false_iff_not, not_lt] at hyx hxy
      exact Int.le_antisymm hyx hxy
    rw [heq]
    rfl
  all_goals
    cases hneg : Binary64.negative x <;> cases hneg' : Binary64.negative y <;> simp_all

/-- The text of a value. -/
def text? : Json → Option (List Char)
  | .str s => some s
  | _ => none

/-- The integer of a value: truth values are none. -/
def int? : Json → Option ℤ
  | .int n => some n
  | _ => none

/-- The items of a value. -/
def items? : Json → Option (List Json)
  | .arr items => some items
  | _ => none

/-- The keys and values of a value. -/
def fields? : Json → Option (List (String × Json))
  | .obj fields => some fields
  | _ => none

/-- The value is `null`. -/
def isNull : Json → Bool
  | .null => true
  | _ => false

/-- The value is `true`. -/
def isTrue : Json → Bool
  | .bool v => v
  | _ => false

mutual

/-- `==` on values. -/
def same : Json → Json → Bool
  | .null, b => b.isNull
  | .bool v, b => b.worth == (Json.bool v).worth
  | .int n, b => b.worth == (Json.int n).worth
  | .float x, b => !Binary64.isNaN x && b.worth == (Json.float x).worth
  | .str s, b => b.text? == some s
  | .arr xs, b => b.items?.any fun ys => sameItems xs ys
  | .obj xs, b => b.fields?.any fun ys => xs.length == ys.length && sameFields xs ys

/-- `==` item by item. -/
def sameItems : List Json → List Json → Bool
  | [], ys => ys.isEmpty
  | _ :: _, [] => false
  | x :: xs, y :: ys => same x y && sameItems xs ys

/-- `==` key by key. -/
def sameFields : List (String × Json) → List (String × Json) → Bool
  | [], _ => true
  | (key, x) :: xs, ys => (ys.lookup key).any (fun y => same x y) && sameFields xs ys

end

/-- A value as it is read: its keys are apart and no number is a NaN. -/
inductive Loaded : Json → Prop
  | null : Loaded .null
  | bool (v : Bool) : Loaded (.bool v)
  | int (n : ℤ) : Loaded (.int n)
  | float {x : Binary64.Pattern} (h : Binary64.isNaN x = false) : Loaded (.float x)
  | str (s : List Char) : Loaded (.str s)
  | arr {items : List Json} (h : ∀ item ∈ items, Loaded item) : Loaded (.arr items)
  | obj {fields : List (String × Json)} (hkeys : (fields.map Prod.fst).Nodup)
      (h : ∀ field ∈ fields, Loaded field.2) : Loaded (.obj fields)

/-- A key that is there once has its value. -/
theorem lookup_of_mem {fields : List (String × Json)} (hkeys : (fields.map Prod.fst).Nodup) {key : String} {x : Json}
    (h : (key, x) ∈ fields) : fields.lookup key = some x := by
  induction fields with
  | nil => exact absurd h List.not_mem_nil
  | cons field rest ih =>
    obtain ⟨hfresh, hrest⟩ := List.nodup_cons.mp hkeys
    rcases List.mem_cons.mp h with rfl | hmem
    · exact List.lookup_cons_self
    · have hne : (key == field.1) = false :=
        beq_eq_false_iff_ne.mpr fun heq => hfresh (heq ▸ List.mem_map_of_mem hmem)
      rw [List.lookup_cons, hne]
      exact ih hrest hmem

/-- Items that are each the same are the same item by item. -/
theorem sameItems_self {items : List Json} (h : ∀ item ∈ items, same item item = true) :
    sameItems items items = true := by
  induction items with
  | nil => rfl
  | cons x rest ih =>
    rw [sameItems, h x List.mem_cons_self, Bool.true_and]
    exact ih fun y hy => h y (List.mem_cons_of_mem _ hy)

/-- Values that are each found under their keys are the same key by key. -/
theorem sameFields_of_lookup {fields others : List (String × Json)}
    (h : ∀ field ∈ fields, ∃ y, others.lookup field.1 = some y ∧ same field.2 y = true) :
    sameFields fields others = true := by
  induction fields with
  | nil => rfl
  | cons field rest ih =>
    obtain ⟨y, hy, hsame⟩ := h field List.mem_cons_self
    rw [sameFields, hy, Option.any_some, hsame, Bool.true_and]
    exact ih fun other hother => h other (List.mem_cons_of_mem _ hother)

/-- A value that was read is the same as itself. -/
theorem same_self {j : Json} (h : Loaded j) : same j j = true := by
  induction h with
  | null => rfl
  | bool v => exact beq_self_eq_true _
  | int n => exact beq_self_eq_true _
  | float hx =>
    rw [same, hx]
    exact beq_self_eq_true _
  | str s => exact beq_self_eq_true _
  | arr _ ih => exact sameItems_self ih
  | @obj fields hkeys _ ih =>
    rw [same, fields?, Option.any_some, beq_self_eq_true, Bool.true_and]
    exact sameFields_of_lookup fun field hfield => ⟨field.2, lookup_of_mem hkeys hfield, ih field hfield⟩

end Json
