import SecOutfall.Foundations.Bytes
import SecOutfall.Foundations.NulList
import SecOutfall.Foundations.Utf16
import SecOutfall.Wire.Common

/-! Inputs of the policy IOCTLs (`driver/secoutfall/secoutfall.cpp`).

The input is the system buffer as the caller filled it. A handler asks for pool memory several
times; `alloc n` says whether its n-th request is met. -/
namespace SecOutfall.Control
open CLayout Bytes Utf16 Wire
set_option autoImplicit false

inductive Status where
  | success | invalidParameter | insufficientResources
  deriving DecidableEq, Repr

def readUchar (input : List UInt8) (off : ℕ) : ℕ := leValue (slice input off 1)

def readUlong (input : List UInt8) (off : ℕ) : ℕ := leValue (slice input off 4)

def readWide (input : List UInt8) (off bytes : ℕ) : List UInt16 := unitsOf (slice input off bytes)

/-- A UNICODE_STRING whose `Length` was cast to USHORT. -/
def ushortString (units : List UInt16) : List UInt16 := units.take (2 * units.length % 65536 / 2)

theorem ushortString_of_lt {units : List UInt16} (h : 2 * units.length < 65536) :
    ushortString units = units := by
  rw [ushortString, Nat.mod_eq_of_lt h, Nat.mul_div_cancel_left _ (by decide)]
  exact List.take_length

-- `UCHAR Enabled; UCHAR Reserved[3];` in front of every policy.
def policyHeader : List CField := [uchar, uchar, uchar, uchar]

namespace FileWatchPolicy

def fields : List CField := policyHeader ++ [ulong, ulong]

def enabled : ℕ := offsetof fields 0
def extensionsCount : ℕ := offsetof fields 4
def extensionsBytes : ℕ := offsetof fields 5

@[simp] theorem enabled_off : enabled = 0 := rfl
@[simp] theorem extensionsCount_off : extensionsCount = 4 := rfl
@[simp] theorem extensionsBytes_off : extensionsBytes = 8 := rfl
@[simp] theorem sizeof_eq : sizeof fields = 12 := rfl

end FileWatchPolicy

namespace DropPolicy

def fields : List CField := policyHeader ++ [ulong, ulong, ulong]

def enabled : ℕ := offsetof fields 0
def extensionsCount : ℕ := offsetof fields 4
def extensionsBytes : ℕ := offsetof fields 5
def dirBytes : ℕ := offsetof fields 6

@[simp] theorem enabled_off : enabled = 0 := rfl
@[simp] theorem extensionsCount_off : extensionsCount = 4 := rfl
@[simp] theorem extensionsBytes_off : extensionsBytes = 8 := rfl
@[simp] theorem dirBytes_off : dirBytes = 12 := rfl
@[simp] theorem sizeof_eq : sizeof fields = 16 := rfl

end DropPolicy

namespace ProtectionPolicy

def fields : List CField := policyHeader ++ [ulong]

def enabled : ℕ := offsetof fields 0
def namesBytes : ℕ := offsetof fields 4

@[simp] theorem enabled_off : enabled = 0 := rfl
@[simp] theorem namesBytes_off : namesBytes = 4 := rfl
@[simp] theorem sizeof_eq : sizeof fields = 8 := rfl

end ProtectionPolicy

namespace InjectionPolicy

def fields : List CField := policyHeader ++ [ulong, ulong]

def enabled : ℕ := offsetof fields 0
def dllPathBytes : ℕ := offsetof fields 4
def exclusionsBytes : ℕ := offsetof fields 5

@[simp] theorem enabled_off : enabled = 0 := rfl
@[simp] theorem dllPathBytes_off : dllPathBytes = 4 := rfl
@[simp] theorem exclusionsBytes_off : exclusionsBytes = 8 := rfl
@[simp] theorem sizeof_eq : sizeof fields = 12 := rfl

end InjectionPolicy

end SecOutfall.Control
