import Mathlib.Data.Nat.Notation

/-! Natural C layout: where the fields of a struct lie and how large the struct is.

A field is placed at the next multiple of its alignment; the size of the struct is rounded up to
its largest alignment, so the tail padding of a struct that starts with a wide field is part of
`sizeof`. -/
namespace SecOutfall.CLayout
set_option autoImplicit false

structure CField where
  size : ℕ
  align : ℕ
  deriving DecidableEq, Repr

def scalar (size : ℕ) : CField := ⟨size, size⟩

def alignUp (pos align : ℕ) : ℕ := (pos + align - 1) / align * align

/-- Offsets of the fields that follow a prefix ending at `pos`, and the end of the last one. -/
def place : ℕ → List CField → List ℕ × ℕ
  | pos, [] => ([], pos)
  | pos, f :: fs =>
    let off := alignUp pos f.align
    let rest := place (off + f.size) fs
    (off :: rest.1, rest.2)

def offsetof (fields : List CField) (i : ℕ) : ℕ := (place 0 fields).1.getD i 0

def alignof (fields : List CField) : ℕ := (fields.map CField.align).foldl max 1

/-- `sizeof(struct)`, tail padding included. -/
def sizeof (fields : List CField) : ℕ := alignUp (place 0 fields).2 (alignof fields)

def nested (fields : List CField) : CField := ⟨sizeof fields, alignof fields⟩

end SecOutfall.CLayout
