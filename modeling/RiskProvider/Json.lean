import RiskProvider.Constants

/-!
# JSON values and field codecs

The values that cross the database and the broker, and how a model's field is written to and
read from them. A `Codec` carries the law that what it writes it reads back, so a model built
from codecs inherits its round trip from its fields.

The texts of identifiers, points in time and decimal numbers are not part of this repository:
`Codecs` collects the three scalar codecs, and everything below is stated for any of them.
-/

namespace RiskProvider

/-- Decimal numbers, as a coefficient and a power of ten. -/
structure Decimal where
  coefficient : ℤ
  exponent : ℤ
deriving DecidableEq, Repr

/-- JSON values. -/
inductive Json where
  | null
  | bool (b : Bool)
  | num (d : Decimal)
  | str (s : String)
  | arr (items : List Json)
  | obj (fields : List (String × Json))

/-- JSON objects, `dict[str, Any]` in Python. -/
abbrev Dict := List (String × Json)

/-- How values of a field are written to JSON and validated from it. -/
structure Codec (α : Type) where
  /-- The JSON value of `a`. -/
  dump : α → Json
  /-- The value read from JSON, when the field's type accepts it. -/
  validate : Json → Option α
  /-- What is written is read back. -/
  validate_dump : ∀ a, validate (dump a) = some a
  /-- No value is written as `null`. -/
  dump_ne_null : ∀ a, dump a ≠ .null

attribute [simp] Codec.validate_dump

namespace Codec

variable {α : Type}

/-- Strings. -/
def string : Codec String where
  dump := .str
  validate
    | .str s => some s
    | _ => none
  validate_dump _ := rfl
  dump_ne_null _ := by simp

/-- An enumeration whose members are written as texts. -/
def enum (value : α → String) (ofValue? : String → Option α)
    (h : ∀ a, ofValue? (value a) = some a) : Codec α where
  dump a := .str (value a)
  validate
    | .str s => ofValue? s
    | _ => none
  validate_dump := h
  dump_ne_null _ := by simp

/-- The JSON value of an optional field: `None` is written as `null`. -/
def dumpOption (c : Codec α) : Option α → Json
  | none => .null
  | some a => c.dump a

/-- The value of an optional field. -/
def validateOption (c : Codec α) : Json → Option (Option α)
  | .null => some none
  | j => (c.validate j).map some

/-- Optional fields round trip. -/
@[simp]
theorem validateOption_dumpOption (c : Codec α) (o : Option α) :
    c.validateOption (c.dumpOption o) = some o := by
  cases o with
  | none => rfl
  | some a =>
      have hnull := c.dump_ne_null a
      have hdump := c.validate_dump a
      unfold dumpOption validateOption
      split
      · contradiction
      · simp [hdump]

/-- The value of a required field. -/
def field (c : Codec α) (name : String) (d : Dict) : Option α :=
  (d.lookup name).bind c.validate

/-- The value of a field with a default, used when the field is missing. -/
def fieldWithDefault (c : Codec α) (name : String) (default : α) (d : Dict) : Option α :=
  match d.lookup name with
  | none => some default
  | some j => c.validate j

/-- The value of an optional field whose default is `None`. -/
def optionalField (c : Codec α) (name : String) (d : Dict) : Option (Option α) :=
  match d.lookup name with
  | none => some none
  | some j => c.validateOption j

end Codec

/-- Only the named fields occur: pydantic's `extra="forbid"`. -/
def Dict.onlyFields (d : Dict) (names : List String) : Bool :=
  d.all fun f => names.contains f.1

/-- The scalar codecs of pydantic. -/
class Codecs where
  uuid : Codec UUID
  datetime : Codec Time
  decimal : Codec Decimal

/-! ### Texts in PostgreSQL -/

/-- PostgreSQL can hold the text: its texts have no U+0000. -/
def storableText (text : String) : Bool := !text.toList.contains (Char.ofNat 0)

mutual

/-- A `JSONB` column can hold the value. -/
def Json.storable : Json → Bool
  | .str s => storableText s
  | .arr items => Json.storableItems items
  | .obj fields => Json.storableFields fields
  | _ => true
termination_by structural j => j

def Json.storableItems : List Json → Bool
  | [] => true
  | item :: items => item.storable && Json.storableItems items
termination_by structural items => items

def Json.storableFields : List (String × Json) → Bool
  | [] => true
  | (name, value) :: fields =>
      storableText name && value.storable && Json.storableFields fields
termination_by structural fields => fields

end

/-- A codec writes values that a `JSONB` column can hold. -/
def Codec.Storable {α : Type} (c : Codec α) : Prop := ∀ a, (c.dump a).storable = true

/-- The texts of identifiers, points in time and decimal numbers have no U+0000. -/
structure Codecs.Storable [Codecs] : Prop where
  uuid : Codecs.uuid.Storable
  datetime : Codecs.datetime.Storable
  decimal : Codecs.decimal.Storable

/-! ### Equality of values -/

namespace Json

mutual

/-- Whether two values are equal. -/
def same : Json → Json → Bool
  | .null, .null => true
  | .bool a, .bool b => a = b
  | .num a, .num b => a = b
  | .str a, .str b => a = b
  | .arr as, .arr bs => sameItems as bs
  | .obj as, .obj bs => sameFields as bs
  | _, _ => false

/-- Whether two arrays are equal. -/
def sameItems : List Json → List Json → Bool
  | [], [] => true
  | a :: as, b :: bs => same a b && sameItems as bs
  | _, _ => false

/-- Whether two objects are equal. -/
def sameFields : List (String × Json) → List (String × Json) → Bool
  | [], [] => true
  | (k, a) :: as, (k', b) :: bs => k = k' && same a b && sameFields as bs
  | _, _ => false

end

mutual

theorem same_iff : ∀ a b : Json, a.same b = true ↔ a = b
  | .null, b => by cases b <;> simp [same]
  | .bool a, b => by cases b <;> simp [same]
  | .num a, b => by cases b <;> simp [same]
  | .str a, b => by cases b <;> simp [same]
  | .arr as, b => by cases b <;> simp [same, sameItems_iff as]
  | .obj as, b => by cases b <;> simp [same, sameFields_iff as]

theorem sameItems_iff : ∀ as bs : List Json, sameItems as bs = true ↔ as = bs
  | [], bs => by cases bs <;> simp [sameItems]
  | a :: as, bs => by cases bs <;> simp [sameItems, same_iff a, sameItems_iff as]

theorem sameFields_iff : ∀ as bs : List (String × Json), sameFields as bs = true ↔ as = bs
  | [], bs => by cases bs <;> simp [sameFields]
  | (k, a) :: as, bs => by
      cases bs with
      | nil => simp [sameFields]
      | cons b bs =>
          obtain ⟨k', b⟩ := b
          simp [sameFields, same_iff a, sameFields_iff as]

end

instance : DecidableEq Json := fun a b => decidable_of_iff _ (same_iff a b)

end Json

end RiskProvider
