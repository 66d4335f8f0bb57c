import Mathlib.Tactic.Common

/-! Windows command-line splitting: `domain/command_line.rs`. -/
namespace SecOutfall.Agent
set_option autoImplicit false

/-- `char::is_whitespace`: the `White_Space` property. -/
def isWhitespace (c : Char) : Bool :=
  9 ≤ c.toNat && c.toNat ≤ 13 || c.toNat == 32 || c.toNat == 133 || c.toNat == 160 || c.toNat == 5760 ||
    8192 ≤ c.toNat && c.toNat ≤ 8202 || c.toNat == 8232 || c.toNat == 8233 || c.toNat == 8239 ||
    c.toNat == 8287 || c.toNat == 12288

structure Splitter where
  argv : List String
  current : List Char
  inQuotes : Bool
  hasToken : Bool
  backslashes : ℕ
  deriving DecidableEq, Repr

def Splitter.initial : Splitter := ⟨[], [], false, false, 0⟩

/-- The token gathered so far, if there is one. -/
def Splitter.finish (s : Splitter) : Splitter :=
  if s.hasToken || !s.current.isEmpty then
    { s with argv := s.argv ++ [.ofList s.current], current := [], hasToken := false }
  else s

def Splitter.pushBackslashes (s : Splitter) (count : ℕ) : Splitter :=
  { s with current := s.current ++ List.replicate count '\\' }

/-- The loop over the characters. -/
def splitChars (s : Splitter) : List Char → Splitter
  | [] => s
  | c :: rest =>
    if c = '\\' then splitChars { s with backslashes := s.backslashes + 1 } rest
    else if c = '"' then
      let escaped := s.pushBackslashes (s.backslashes / 2)
      let escaped := { escaped with backslashes := 0, hasToken := true }
      if s.backslashes % 2 = 0 then
        match s.inQuotes, rest with
        | true, '"' :: rest => splitChars { escaped with current := escaped.current ++ ['"'] } rest
        | inQuotes, rest => splitChars { escaped with inQuotes := !inQuotes } rest
      else splitChars { escaped with current := escaped.current ++ ['"'] } rest
    else if isWhitespace c && !s.inQuotes then
      -- the backslash count is not cleared here
      splitChars (s.pushBackslashes s.backslashes).finish rest
    else
      let pushed := s.pushBackslashes s.backslashes
      splitChars { pushed with backslashes := 0, current := pushed.current ++ [c], hasToken := true } rest

def splitCommandLine (line : String) : List String :=
  let s := splitChars .initial line.toList
  (s.pushBackslashes s.backslashes).finish.argv

example : splitCommandLine "\"C:\\w s.exe\" \"C:\\e.js\" /f" = ["C:\\w s.exe", "C:\\e.js", "/f"] := by
  decide +kernel

end SecOutfall.Agent
