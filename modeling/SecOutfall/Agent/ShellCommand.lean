import Mathlib.Algebra.Ring.Nat
import SecOutfall.Agent.Quoting

/-! Association commands: `substitute_command` of `domain/shell_command.rs`, and what `split_command_line`
makes of them. -/
namespace SecOutfall.ShellCommand
open Agent
set_option autoImplicit false

/-! ## Model -/

inductive ShellCommandError where
  | empty
  deriving DecidableEq, Repr

/-- `str::get` from a byte index on: nothing behind the end, nor from inside a character. -/
def getFrom : List Char → ℕ → Option (List Char)
  | cs, 0 => some cs
  | [], _ + 1 => none
  | c :: cs, index + 1 => if c.utf8Size ≤ index + 1 then getFrom cs (index + 1 - c.utf8Size) else none

def startsPlaceholder (rest : List Char) : Bool :=
  ['%', '1'].isPrefixOf rest || ['%', 'l'].isPrefixOf rest || ['%', 'L'].isPrefixOf rest

structure Scan where
  index : ℕ
  result : List Char
  placeholderSeen : Bool
  deriving DecidableEq, Repr

/-- A round of the loop, if it goes on. -/
def scanStep (command document : List Char) (s : Scan) : Option Scan :=
  match getFrom command s.index with
  | none => none
  | some rest =>
    if startsPlaceholder rest then some ⟨s.index + 2, s.result ++ document, true⟩
    else
      match rest with
      | [] => none
      | chunk :: _ => some ⟨s.index + chunk.utf8Size, s.result ++ [chunk], s.placeholderSeen⟩

/-- The loop, as far as the fuel goes. -/
def scan (command document : List Char) : ℕ → Scan → Option Scan
  | 0, _ => none
  | fuel + 1, s =>
    match scanStep command document s with
    | none => some s
    | some s => scan command document fuel s

def isBlank (command : String) : Bool := command.toList.all isWhitespace

def substituteCommand (fuel : ℕ) (command document : String) : Option (Except ShellCommandError String) :=
  if isBlank command then some (.error .empty)
  else
    (scan command.toList document.toList fuel ⟨0, [], false⟩).map fun s =>
      .ok (.ofList (if s.placeholderSeen then s.result else s.result ++ ' ' :: '"' :: document.toList ++ ['"']))

example : substituteCommand 11 "app.exe %2" "a b.js" = some (.ok "app.exe %2 \"a b.js\"") := by
  decide +kernel

/-! ## Templates -/

/-- What stands behind the per cent sign of a placeholder. -/
def IsMark (c : Char) : Prop := c = '1' ∨ c = 'l' ∨ c = 'L'

def Free (part : List Char) : Prop := ∀ before c after, part = before ++ '%' :: c :: after → ¬ IsMark c

/-- A text and, behind it, placeholders with the text that follows each. -/
def template (first : List Char) (rest : List (Char × List Char)) : List Char :=
  first ++ rest.flatMap fun (c, part) => '%' :: c :: part

def filled (document first : List Char) (rest : List (Char × List Char)) : List Char :=
  first ++ rest.flatMap fun (_, part) => document ++ part

/-- The command cut at its placeholders. -/
structure Parts (command : List Char) (first : List Char) (rest : List (Char × List Char)) : Prop where
  whole : command = template first rest
  first : Free first
  marks : ∀ piece ∈ rest, IsMark piece.1
  parts : ∀ piece ∈ rest, Free piece.2

theorem startsPlaceholder_iff {rest : List Char} :
    startsPlaceholder rest = true ↔ ∃ c after, rest = '%' :: c :: after ∧ IsMark c := by
  simp only [startsPlaceholder, Bool.or_eq_true, List.isPrefixOf_iff_prefix, IsMark]
  constructor
  · rintro ((⟨after, rfl⟩ | ⟨after, rfl⟩) | ⟨after, rfl⟩)
    · exact ⟨'1', after, rfl, .inl rfl⟩
    · exact ⟨'l', after, rfl, .inr (.inl rfl)⟩
    · exact ⟨'L', after, rfl, .inr (.inr rfl)⟩
  · rintro ⟨c, after, rfl, rfl | rfl | rfl⟩
    · exact .inl (.inl ⟨after, rfl⟩)
    · exact .inl (.inr ⟨after, rfl⟩)
    · exact .inr ⟨after, rfl⟩

theorem free_nil : Free [] := by
  rintro before c after h
  simp at h

theorem free_of_notMem {part : List Char} (h : '%' ∉ part) : Free part := by
  rintro before c after rfl
  simp at h

theorem Free.tail {c : Char} {part : List Char} (h : Free (c :: part)) : Free part := by
  rintro before mark after rfl
  exact h (c :: before) mark after rfl

theorem Free.cons {c : Char} {part : List Char} (h : Free part) (hstart : startsPlaceholder (c :: part) = false) :
    Free (c :: part) := by
  rintro before mark after heq halias
  cases before with
  | nil => exact Bool.false_ne_true (hstart.symm.trans (startsPlaceholder_iff.mpr ⟨mark, after, heq, halias⟩))
  | cons first before => exact h before mark after (List.cons.inj heq).2 halias

/-- No placeholder goes over the end of a free part, unless a mark follows. -/
theorem Free.starts {c : Char} {part rest : List Char} (h : Free (c :: part))
    (hrest : ∀ d after, rest = d :: after → ¬ IsMark d) : startsPlaceholder (c :: (part ++ rest)) = false := by
  by_contra hplaceholder
  obtain ⟨mark, after, heq, hmark⟩ := startsPlaceholder_iff.mp (Bool.not_eq_false _ ▸ hplaceholder)
  obtain ⟨rfl, htail⟩ := List.cons.inj heq
  cases part with
  | nil => exact hrest mark after htail hmark
  | cons d part =>
    obtain ⟨rfl, -⟩ := List.cons.inj htail
    exact h [] _ part rfl hmark

theorem Free.append {part rest : List Char} (h : Free part) (hfree : Free rest)
    (hrest : ∀ d after, rest = d :: after → ¬ IsMark d) : Free (part ++ rest) := by
  induction part with
  | nil => exact hfree
  | cons c part ih => exact (ih h.tail).cons (h.starts hrest)

/-- Every command has its parts; by induction on a bound of the length, as a placeholder goes at once. -/
theorem exists_parts (command : List Char) : ∃ first rest, Parts command first rest := by
  obtain ⟨n, hn⟩ : ∃ n, command.length ≤ n := ⟨_, Nat.le_refl _⟩
  induction n generalizing command with
  | zero =>
    obtain rfl := List.eq_nil_of_length_eq_zero (Nat.le_zero.mp hn)
    exact ⟨[], [], rfl, free_nil, by simp, by simp⟩
  | succ n ih =>
    cases command with
    | nil => exact ⟨[], [], rfl, free_nil, by simp, by simp⟩
    | cons c command =>
      rw [List.length_cons] at hn
      cases hstart : startsPlaceholder (c :: command) with
      | true =>
        obtain ⟨mark, after, heq, halias⟩ := startsPlaceholder_iff.mp hstart
        obtain ⟨rfl, rfl⟩ := List.cons.inj heq
        rw [List.length_cons] at hn
        obtain ⟨first, rest, hparts⟩ := ih after (by omega)
        refine ⟨[], (mark, first) :: rest, ?_, free_nil, ?_, ?_⟩
        · rw [hparts.whole]
          rfl
        · exact List.forall_mem_cons.mpr ⟨halias, hparts.marks⟩
        · exact List.forall_mem_cons.mpr ⟨hparts.first, hparts.parts⟩
      | false =>
        obtain ⟨first, rest, hparts⟩ := ih command (by omega)
        refine ⟨c :: first, rest, ?_, hparts.first.cons ?_, hparts.marks, hparts.parts⟩
        · rw [hparts.whole]
          rfl
        · by_contra hplaceholder
          obtain ⟨mark, after, heq, halias⟩ := startsPlaceholder_iff.mp (Bool.not_eq_false _ ▸ hplaceholder)
          obtain ⟨rfl, rfl⟩ := List.cons.inj heq
          refine Bool.false_ne_true (hstart.symm.trans (startsPlaceholder_iff.mpr ⟨mark, ?_, ?_, halias⟩))
          · exact after ++ rest.flatMap fun (c, part) => '%' :: c :: part
          · rw [hparts.whole]
            rfl

/-! ## The scan -/

def utf8Length (cs : List Char) : ℕ := (cs.map Char.utf8Size).sum

section
variable {document : List Char} {done rest result : List Char} {seen : Bool}

/-- The index stands behind what was scanned, so on a character. -/
theorem getFrom_utf8Length (done rest : List Char) : getFrom (done ++ rest) (utf8Length done) = some rest := by
  induction done with
  | nil => cases rest <;> rfl
  | cons c done ih =>
    have hpos := c.utf8Size_pos
    obtain ⟨size, hsize⟩ := Nat.exists_eq_add_one.mpr (Nat.add_pos_left hpos (utf8Length done))
    have hlength : utf8Length (c :: done) = size + 1 := by rw [← hsize]; simp [utf8Length]
    rw [hlength, List.cons_append, getFrom, if_pos (by omega), ← hsize, Nat.add_sub_cancel_left, ih]

theorem scan_end (command document : List Char) (fuel : ℕ) :
    scan command document (fuel + 1) ⟨utf8Length command, result, seen⟩ =
      some ⟨utf8Length command, result, seen⟩ := by
  have hrest := getFrom_utf8Length command []
  rw [List.append_nil] at hrest
  rw [scan, scanStep, hrest]
  rfl

/-- A character that starts no placeholder is passed on. -/
theorem scan_char {c : Char} (h : startsPlaceholder (c :: rest) = false) (fuel : ℕ) :
    scan (done ++ c :: rest) document (fuel + 1) ⟨utf8Length done, result, seen⟩ =
      scan (done ++ [c] ++ rest) document fuel ⟨utf8Length (done ++ [c]), result ++ [c], seen⟩ := by
  have hlength : utf8Length done + c.utf8Size = utf8Length (done ++ [c]) := by simp [utf8Length]
  rw [scan, scanStep, getFrom_utf8Length]
  simp only [h, Bool.false_eq_true, if_false, hlength, List.append_assoc, List.singleton_append]

/-- A placeholder becomes the document, which the scan does not see. -/
theorem scan_placeholder {mark : Char} (h : IsMark mark) (fuel : ℕ) :
    scan (done ++ '%' :: mark :: rest) document (fuel + 1) ⟨utf8Length done, result, seen⟩ =
      scan (done ++ ['%', mark] ++ rest) document fuel
        ⟨utf8Length (done ++ ['%', mark]), result ++ document, true⟩ := by
  have hlength : utf8Length done + 2 = utf8Length (done ++ ['%', mark]) := by
    obtain rfl | rfl | rfl := h <;> simp [utf8Length, Char.utf8Size]
  have hstart : startsPlaceholder ('%' :: mark :: rest) = true := startsPlaceholder_iff.mpr ⟨mark, rest, rfl, h⟩
  rw [scan, scanStep, getFrom_utf8Length]
  simp only [hstart, if_true, hlength, List.append_assoc, List.cons_append, List.nil_append]

/-- A part without a placeholder is passed on whole, in front of the next placeholder or at the end. -/
theorem scan_part (part : List Char) (hfree : Free part) (hrest : ∀ d after, rest = d :: after → ¬ IsMark d)
    (fuel : ℕ) :
    scan (done ++ part ++ rest) document (fuel + part.length) ⟨utf8Length done, result, seen⟩ =
      scan (done ++ part ++ rest) document fuel ⟨utf8Length (done ++ part), result ++ part, seen⟩ := by
  induction part generalizing done result with
  | nil => simp
  | cons c part ih =>
    have hstart : startsPlaceholder (c :: (part ++ rest)) = false := hfree.starts hrest
    have hpart : done ++ c :: part ++ rest = done ++ c :: (part ++ rest) := by simp
    rw [hpart, List.length_cons, ← Nat.add_assoc, scan_char hstart, ← List.append_assoc, ih hfree.tail]
    simp

end

theorem template_cons (part : List Char) (mark : Char) (rest : List (Char × List Char)) :
    template [] ((mark, part) :: rest) = '%' :: mark :: (part ++ template [] rest) := by
  simp [template]

/-- What follows a part begins with a per cent sign, and that is no mark. -/
theorem template_head (rest : List (Char × List Char)) (d : Char) (after : List Char)
    (h : template [] rest = d :: after) : ¬ IsMark d := by
  cases rest with
  | nil => cases h
  | cons piece rest =>
    rw [← (List.cons.inj h).1]
    simp [IsMark]

/-- By induction on the placeholders, behind whatever was scanned before. -/
theorem scan_pieces {document : List Char} (rest : List (Char × List Char)) (hmarks : ∀ piece ∈ rest, IsMark piece.1)
    (hparts : ∀ piece ∈ rest, Free piece.2) (done result : List Char) (seen : Bool) {fuel : ℕ}
    (hfuel : (template [] rest).length < fuel) :
    scan (done ++ template [] rest) document fuel ⟨utf8Length done, result, seen⟩ =
      some ⟨utf8Length (done ++ template [] rest), result ++ filled document [] rest, seen || !rest.isEmpty⟩ := by
  induction rest generalizing done result seen fuel with
  | nil =>
    obtain ⟨fuel, rfl⟩ := Nat.exists_eq_add_one.mpr hfuel
    have hend : done ++ template [] [] = done := List.append_nil done
    rw [hend, scan_end]
    simp [filled]
  | cons piece rest ih =>
    obtain ⟨mark, part⟩ := piece
    obtain ⟨hmark, hmarks⟩ := List.forall_mem_cons.mp hmarks
    obtain ⟨hpart, hparts⟩ := List.forall_mem_cons.mp hparts
    rw [template_cons] at hfuel ⊢
    simp only [List.length_cons, List.length_append] at hfuel
    obtain ⟨left, hleft, rfl⟩ : ∃ left, (template [] rest).length < left ∧ fuel = left + part.length + 1 :=
      ⟨fuel - part.length - 1, by omega, by omega⟩
    rw [scan_placeholder hmark, ← List.append_assoc, scan_part part hpart (template_head rest),
      ih hmarks hparts _ _ _ hleft]
    simp [filled]

theorem scan_template {document first : List Char} {rest : List (Char × List Char)} {command : List Char}
    (h : Parts command first rest) {fuel : ℕ} (hfuel : command.length < fuel) :
    scan command document fuel ⟨0, [], false⟩ =
      some ⟨utf8Length command, filled document first rest, !rest.isEmpty⟩ := by
  have hwhole : command = [] ++ first ++ template [] rest := by
    rw [h.whole]
    simp [template]
  rw [hwhole, List.length_append, List.nil_append] at hfuel
  obtain ⟨left, hleft, rfl⟩ : ∃ left, (template [] rest).length < left ∧ fuel = left + first.length :=
    ⟨fuel - first.length, by omega, by omega⟩
  have hfirst : scan ([] ++ first ++ template [] rest) document (left + first.length) ⟨utf8Length [], [], false⟩ = _ :=
    scan_part first h.first (template_head rest) left
  rw [hwhole]
  refine hfirst.trans ?_
  rw [scan_pieces rest h.marks h.parts _ _ _ hleft]
  simp [filled]

/-! ## The launched line -/

/-- Every placeholder becomes the document; without one the document goes behind, in quotes. -/
def substituted (document first : List Char) (rest : List (Char × List Char)) : List Char :=
  if rest.isEmpty then first ++ ' ' :: '"' :: document ++ ['"'] else filled document first rest

theorem substituteCommand_eq {fuel : ℕ} {command document : String} {first : List Char} {rest : List (Char × List Char)}
    (hfuel : command.toList.length < fuel) (hblank : isBlank command = false)
    (hparts : Parts command.toList first rest) :
    substituteCommand fuel command document = some (.ok (.ofList (substituted document.toList first rest))) := by
  rw [substituteCommand, hblank, if_neg Bool.false_ne_true, scan_template hparts hfuel]
  cases rest with
  | nil => simp [substituted, filled]
  | cons piece rest => simp [substituted]

/-- Has no quote, and no backslash at its end. -/
def Plain (arg : String) : Prop := '"' ∉ arg.toList ∧ arg.toList.getLast? ≠ some '\\'

/-- Between quotes a plain argument needs no escapes. -/
theorem quoteLoop_plain (cs : List Char) (n : ℕ) (hquote : '"' ∉ cs)
    (hlast : (List.replicate n '\\' ++ cs).getLast? ≠ some '\\') :
    quoteLoop n cs = List.replicate n '\\' ++ cs ++ ['"'] := by
  induction cs generalizing n with
  | nil =>
    cases n with
    | zero => rfl
    | succ n => simp [List.replicate_succ'] at hlast
  | cons c cs ih =>
    obtain ⟨hc, hcs⟩ := List.ne_and_not_mem_of_not_mem_cons hquote
    by_cases hbackslash : c = '\\'
    · subst hbackslash
      rw [quoteLoop_backslash, ih (n + 1) hcs]
      · simp [List.replicate_succ']
      · simpa [List.replicate_succ'] using hlast
    · rw [quoteLoop, if_neg hbackslash, if_neg (Ne.symm hc), ih 0 hcs]
      · simp
      · cases cs with
        | nil => simp
        | cons d cs => simpa using hlast

theorem splitChars_plainQuoted {arg : String} (h : Plain arg) (argv : List String) {rest : List Char}
    (hrest : rest.head? ≠ some '"') :
    splitChars (.start argv 0) ('"' :: arg.toList ++ '"' :: rest) =
      splitChars ⟨argv, arg.toList, false, true, 0⟩ rest := by
  have hbody : '"' :: arg.toList ++ '"' :: rest = '"' :: (quoteLoop 0 arg.toList ++ rest) := by
    rw [quoteLoop_plain arg.toList 0 h.1 h.2]
    simp
  rw [hbody, splitChars_toggle rfl (fun hquotes => by cases hquotes),
    splitChars_quoteLoop _ 0 (.inl rfl) rfl fun _ => hrest]
  simp [Splitter.start]

def associationTemplate (program : String) : String := .ofList ('"' :: program.toList ++ ['"', ' ', '"', '%', '1', '"'])

example : associationTemplate "p" = "\"p\" \"%1\"" := by decide +kernel

def associationLine (program document : String) : String :=
  .ofList ('"' :: program.toList ++ '"' :: ' ' :: '"' :: document.toList ++ ['"'])

theorem split_associationLine {program document : String} (hprogram : Plain program) (hdocument : Plain document) :
    splitCommandLine (associationLine program document) = [program, document] := by
  have houtcome : splitCommandLine (associationLine program document) =
      (Splitter.start [] 0).outcome ('"' :: program.toList ++ '"' :: (' ' :: '"' :: document.toList ++ ['"'])) := by
    rw [splitCommandLine, associationLine, String.toList_ofList]
    simp [Splitter.outcome, Splitter.start, Splitter.initial]
  rw [houtcome, Splitter.outcome, splitChars_plainQuoted hprogram [] (by simp), List.cons_append, List.cons_append,
    splitChars_completed (by decide) rfl (.inl rfl), ← List.cons_append, splitChars_plainQuoted hdocument _ (by simp)]
  simp [splitChars, Splitter.token, Splitter.pushBackslashes, Splitter.finish]

theorem associationTemplate_parts {program : String} (h : Free program.toList) :
    Parts (associationTemplate program).toList ('"' :: program.toList ++ ['"', ' ', '"']) [('1', ['"'])] := by
  have hquotes : Free ['"', ' ', '"'] := ((free_nil.cons rfl).cons rfl).cons rfl
  have hbehind : ∀ d after, ['"', ' ', '"'] = d :: after → ¬ IsMark d := by
    rintro d after heq
    rw [← (List.cons.inj heq).1]
    simp [IsMark]
  refine ⟨by simp [associationTemplate, template], (h.append hquotes hbehind).cons rfl, by simp [IsMark], ?_⟩
  exact List.forall_mem_singleton.mpr (free_nil.cons rfl)

/-- The document replaces the placeholders of any command, and is the one argument behind a quoted program. -/
theorem association_detonates :
    (∀ (fuel : ℕ) (command document : String), command.toList.length < fuel → isBlank command = false →
      (∃ first rest, Parts command.toList first rest) ∧
        ∀ first rest, Parts command.toList first rest →
          substituteCommand fuel command document = some (.ok (.ofList (substituted document.toList first rest)))) ∧
      ∀ (fuel : ℕ) (program document : String), (associationTemplate program).toList.length < fuel →
        Plain program → Free program.toList → Plain document →
          ∃ line, substituteCommand fuel (associationTemplate program) document = some (.ok line) ∧
            splitCommandLine line = [program, document] := by
  constructor
  · intro fuel command document hfuel hblank
    exact ⟨exists_parts _, fun _ _ hparts => substituteCommand_eq hfuel hblank hparts⟩
  · intro fuel program document hfuel hprogram hfree hdocument
    have hblank : isBlank (associationTemplate program) = false := by
      simp [isBlank, associationTemplate, isWhitespace]
    refine ⟨_, substituteCommand_eq hfuel hblank (associationTemplate_parts hfree), ?_⟩
    have hline : String.ofList (substituted document.toList ('"' :: program.toList ++ ['"', ' ', '"']) [('1', ['"'])]) =
        associationLine program document := by
      simp [substituted, filled, associationLine]
    rw [hline]
    exact split_associationLine hprogram hdocument

/-- A document that looks like a placeholder, with a blank in it. -/
theorem spacedDocument_detonates : ∃ line,
    substituteCommand 20 (associationTemplate "C:\\w.exe") "C:\\a %1.js" = some (.ok line) ∧
      splitCommandLine line = ["C:\\w.exe", "C:\\a %1.js"] :=
  association_detonates.2 20 "C:\\w.exe" "C:\\a %1.js" (by decide +kernel) ⟨by decide +kernel, by decide +kernel⟩
    (free_of_notMem (by decide +kernel)) ⟨by decide +kernel, by decide +kernel⟩

end SecOutfall.ShellCommand
