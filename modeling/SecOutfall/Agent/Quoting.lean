import Mathlib.Data.List.Infix
import SecOutfall.Agent.CommandLine

/-! Arguments on their way through a command line: `quote` of `adapters/driven/launcher/token.rs`, and
`split_command_line` behind it. -/
namespace SecOutfall.Agent
set_option autoImplicit false

/-! ## Model -/

def needsQuotes (arg : String) : Bool :=
  arg.toList.isEmpty || arg.toList.any fun c => c == ' ' || c == '\t' || c == '\n' || c == '"'

/-- The loop of `quote`, and the closing quote. -/
def quoteLoop (backslashes : ℕ) : List Char → List Char
  | [] => List.replicate (backslashes * 2) '\\' ++ ['"']
  | c :: rest =>
    if c = '\\' then quoteLoop (backslashes + 1) rest
    else if c = '"' then List.replicate (backslashes * 2 + 1) '\\' ++ '"' :: quoteLoop 0 rest
    else List.replicate backslashes '\\' ++ c :: quoteLoop 0 rest

def quote (arg : String) : String :=
  if needsQuotes arg then .ofList ('"' :: quoteLoop 0 arg.toList) else arg

/-- The command line of a launch. -/
def commandLine (path : String) (args : List String) : String :=
  args.foldl (fun line arg => line.push ' ' ++ quote arg) (quote path)

/-- Passes unquoted only without a blank. -/
def unbroken (arg : String) : Bool := needsQuotes arg || !arg.toList.any isWhitespace

/-- Passes unquoted only without a backslash at its end. -/
def endsClean (arg : String) : Bool := needsQuotes arg || arg.toList.getLast? != some '\\'

/-- The last argument may end in backslashes. -/
def Recoverable (args : List String) : Prop :=
  (∀ arg ∈ args, unbroken arg = true) ∧ ∀ arg ∈ args.dropLast, endsClean arg = true

/-! ## Single characters -/

namespace Splitter

/-- The splitter between two arguments, with the backslashes it has carried over. -/
def start (argv : List String) (backslashes : ℕ) : Splitter := ⟨argv, [], false, false, backslashes⟩

/-- The token so far, if it ends here. -/
def token (s : Splitter) : List Char := s.current ++ List.replicate s.backslashes '\\'

/-- What the rest of a line makes of the arguments. -/
def outcome (s : Splitter) (line : List Char) : List String :=
  let s := splitChars s line
  (s.pushBackslashes s.backslashes).finish.argv

end Splitter

section
variable {s s' : Splitter} {c : Char} {rest : List Char}

theorem splitChars_backslash (s : Splitter) (rest : List Char) :
    splitChars s ('\\' :: rest) = splitChars { s with backslashes := s.backslashes + 1 } rest := by
  rw [splitChars, if_pos rfl]

theorem splitChars_backslashes (s : Splitter) (n : ℕ) (rest : List Char) :
    splitChars s (List.replicate n '\\' ++ rest) = splitChars { s with backslashes := s.backslashes + n } rest := by
  induction n generalizing s with
  | zero => rfl
  | succ n ih =>
    rw [List.replicate_succ, List.cons_append, splitChars_backslash, ih, Nat.add_assoc, Nat.add_comm 1 n]

/-- A quote behind an odd run of backslashes. -/
theorem splitChars_literal (h : s.backslashes % 2 = 1) : splitChars s ('"' :: rest) =
    splitChars { s with
      current := s.current ++ List.replicate (s.backslashes / 2) '\\' ++ ['"'], backslashes := 0, hasToken := true }
      rest := by
  rw [splitChars, if_neg (by decide), if_pos rfl, if_neg (by omega)]
  rfl

/-- A quote behind an even one. -/
theorem splitChars_toggle (h : s.backslashes % 2 = 0) (hrest : s.inQuotes = true → rest.head? ≠ some '"') :
    splitChars s ('"' :: rest) =
      splitChars { s with
        current := s.current ++ List.replicate (s.backslashes / 2) '\\', inQuotes := !s.inQuotes, backslashes := 0,
        hasToken := true } rest := by
  rw [splitChars, if_neg (by decide), if_pos rfl]
  dsimp only
  rw [if_pos h]
  split
  case h_1 hquotes => exact absurd rfl (hrest hquotes)
  case h_2 => rfl

/-- Two quotes inside of quotes. -/
theorem splitChars_doubled (h : s.backslashes % 2 = 0) (hquotes : s.inQuotes = true) :
    splitChars s ('"' :: '"' :: rest) =
      splitChars { s with
        current := s.current ++ List.replicate (s.backslashes / 2) '\\' ++ ['"'], backslashes := 0, hasToken := true }
        rest := by
  rw [splitChars, if_neg (by decide), if_pos rfl]
  dsimp only
  rw [if_pos h]
  split
  case h_1 hrest =>
    cases hrest
    rfl
  case h_2 hother => exact absurd rfl (hother rest hquotes)

theorem splitChars_blank (hc : isWhitespace c = true) (hquotes : s.inQuotes = false) :
    splitChars s (c :: rest) = splitChars (s.pushBackslashes s.backslashes).finish rest := by
  rw [splitChars, if_neg (by rintro rfl; cases hc), if_neg (by rintro rfl; cases hc), if_pos (by rw [hc, hquotes]; rfl)]

theorem splitChars_plain (hbackslash : c ≠ '\\') (hquote : c ≠ '"')
    (hblank : isWhitespace c = false ∨ s.inQuotes = true) :
    splitChars s (c :: rest) =
      splitChars { s with current := s.token ++ [c], backslashes := 0, hasToken := true } rest := by
  have hpasses : ¬ (isWhitespace c && !s.inQuotes) = true := by
    obtain h | h := hblank <;> simp [h]
  rw [splitChars, if_neg hbackslash, if_neg hquote, if_neg hpasses]
  rfl

/-! ## The quoted body -/

theorem quoteLoop_backslash (n : ℕ) (cs : List Char) : quoteLoop n ('\\' :: cs) = quoteLoop (n + 1) cs := by
  rw [quoteLoop, if_pos rfl]

theorem splitChars_quoteLoop_quote (n : ℕ) (cs : List Char) (h : s.backslashes = 0) :
    splitChars s (quoteLoop n ('"' :: cs) ++ rest) =
      splitChars { s with
        current := s.current ++ List.replicate n '\\' ++ ['"'], backslashes := 0, hasToken := true }
        (quoteLoop 0 cs ++ rest) := by
  have hhalf : (n * 2 + 1) / 2 = n := by omega
  rw [quoteLoop, if_neg (by decide), if_pos rfl, List.append_assoc, splitChars_backslashes, List.cons_append,
    splitChars_literal (by simp [h])]
  simp [h, hhalf]

theorem splitChars_quoteLoop_other (n : ℕ) (cs : List Char) (hbackslash : c ≠ '\\') (hquote : c ≠ '"')
    (h : s.backslashes = 0) :
    splitChars s (quoteLoop n (c :: cs) ++ rest) =
      splitChars { s with backslashes := n } (c :: (quoteLoop 0 cs ++ rest)) := by
  rw [quoteLoop, if_neg hbackslash, if_neg hquote, List.append_assoc, splitChars_backslashes, List.cons_append, h,
    Nat.zero_add]

/-- The body of a quoted argument comes back whole, outside of quotes as long as it has no blank. -/
theorem splitChars_quoteLoop (cs : List Char) (n : ℕ) (hblank : s.inQuotes = true ∨ ∀ c ∈ cs, isWhitespace c = false)
    (hbackslashes : s.backslashes = 0) (hrest : s.inQuotes = true → rest.head? ≠ some '"') :
    splitChars s (quoteLoop n cs ++ rest) =
      splitChars { s with
        current := s.current ++ List.replicate n '\\' ++ cs, inQuotes := !s.inQuotes, hasToken := true } rest := by
  induction cs generalizing s n with
  | nil =>
    rw [quoteLoop, List.append_assoc, splitChars_backslashes, List.singleton_append, splitChars_toggle]
    · simp [hbackslashes]
    · simp [hbackslashes]
    · exact hrest
  | cons c cs ih =>
    have htail : s.inQuotes = true ∨ ∀ c ∈ cs, isWhitespace c = false :=
      hblank.imp_right fun h c hc => h c (List.mem_cons_of_mem _ hc)
    by_cases hbackslash : c = '\\'
    · rw [hbackslash, quoteLoop_backslash, ih (n + 1) htail hbackslashes hrest]
      simp [List.replicate_succ']
    by_cases hquote : c = '"'
    · rw [hquote, splitChars_quoteLoop_quote n cs hbackslashes, ih]
      · simp [hbackslashes]
      · exact htail
      · rfl
      · exact hrest
    · rw [splitChars_quoteLoop_other n cs hbackslash hquote hbackslashes, splitChars_plain hbackslash hquote, ih]
      · simp [hbackslashes, Splitter.token]
      · exact htail
      · rfl
      · exact hrest
      · exact (hblank.imp_right fun h => h c List.mem_cons_self).symm

/-! ## The next token -/

/-- No token is lost, and the one under way only grows. -/
def Leads (s s' : Splitter) : Prop :=
  (s'.argv = s.argv ∧ s.current <+: s'.current) ∨
    ∃ token : String, s.argv ++ [token] <+: s'.argv ∧ s.current <+: token.toList

theorem Leads.refl (s : Splitter) : Leads s s := .inl ⟨rfl, List.prefix_refl _⟩

theorem Leads.trans {s'' : Splitter} (h : Leads s s') (h' : Leads s' s'') : Leads s s'' := by
  obtain ⟨hargv, hcurrent⟩ | ⟨token, hargv, hcurrent⟩ := h
  · obtain ⟨hargv', hcurrent'⟩ | ⟨token, hargv', hcurrent'⟩ := h'
    · exact .inl ⟨hargv'.trans hargv, hcurrent.trans hcurrent'⟩
    · exact .inr ⟨token, hargv ▸ hargv', hcurrent.trans hcurrent'⟩
  · refine .inr ⟨token, hargv.trans ?_, hcurrent⟩
    obtain ⟨hargv', -⟩ | ⟨token', hargv', -⟩ := h'
    · rw [hargv']
    · exact (List.prefix_append _ _).trans hargv'

theorem Leads.grow {s'' : Splitter} {more : List Char} (h : Leads s' s'') (hargv : s'.argv = s.argv)
    (hcurrent : s'.current = s.current ++ more) : Leads s s'' :=
  .trans (.inl ⟨hargv, hcurrent ▸ List.prefix_append _ _⟩) h

theorem finish_leads (s : Splitter) (n : ℕ) : Leads s (s.pushBackslashes n).finish := by
  unfold Splitter.finish
  split
  · exact .inr ⟨_, List.prefix_refl _, by rw [String.toList_ofList]; exact List.prefix_append _ _⟩
  · exact (Leads.refl _).grow rfl rfl

/-- By induction on a bound of the length: two quotes go at once. -/
theorem splitChars_leads (s : Splitter) (line : List Char) : Leads s (splitChars s line) := by
  obtain ⟨n, hn⟩ : ∃ n, line.length ≤ n := ⟨_, Nat.le_refl _⟩
  induction n generalizing s line with
  | zero =>
    rw [List.eq_nil_of_length_eq_zero (Nat.le_zero.mp hn)]
    exact .refl s
  | succ n ih =>
    cases line with
    | nil => exact .refl s
    | cons c rest =>
      have hrest : rest.length ≤ n := Nat.le_of_succ_le_succ hn
      by_cases hbackslash : c = '\\'
      · rw [hbackslash, splitChars_backslash]
        exact (ih _ rest hrest).grow rfl (List.append_nil _).symm
      by_cases hquote : c = '"'
      · subst hquote
        by_cases heven : s.backslashes % 2 = 0
        · by_cases hdoubled : s.inQuotes = true ∧ rest.head? = some '"'
          · obtain ⟨hquotes, hhead⟩ := hdoubled
            obtain ⟨rest', rfl⟩ := List.head?_eq_some_iff.mp hhead
            rw [splitChars_doubled heven hquotes]
            exact (ih _ rest' (Nat.le_of_succ_le hrest)).grow rfl (List.append_assoc _ _ _)
          · rw [splitChars_toggle heven fun hquotes hhead => hdoubled ⟨hquotes, hhead⟩]
            exact (ih _ rest hrest).grow rfl rfl
        · rw [splitChars_literal (by omega)]
          exact (ih _ rest hrest).grow rfl (List.append_assoc _ _ _)
      by_cases hblank : isWhitespace c = true ∧ s.inQuotes = false
      · rw [splitChars_blank hblank.1 hblank.2]
        exact .trans (finish_leads s _) (ih _ rest hrest)
      · have hplain : isWhitespace c = false ∨ s.inQuotes = true := by
          simpa only [← Bool.not_eq_true, not_and_or, not_not] using hblank
        rw [splitChars_plain hbackslash hquote hplain]
        exact (ih _ rest hrest).grow rfl (List.append_assoc _ _ _)

/-- The next token is this one. -/
def Yields (s : Splitter) (line : List Char) (token : String) : Prop := s.argv ++ [token] <+: s.outcome line

theorem outcome_leads (s : Splitter) (line : List Char) :
    Leads s ((splitChars s line).pushBackslashes (splitChars s line).backslashes).finish :=
  (splitChars_leads s line).trans (finish_leads _ _)

theorem Leads.argv_grows (h : Leads s s') : s.argv <+: s'.argv := by
  obtain ⟨hargv, -⟩ | ⟨token, hargv, -⟩ := h
  · rw [hargv]
  · exact (List.prefix_append _ _).trans hargv

theorem concat_prefix_inj {argv line : List String} {token token' : String} (h : argv ++ [token] <+: line)
    (h' : argv ++ [token'] <+: line) : token = token' := by
  have heq := (List.prefix_of_prefix_length_le h h' (by simp)).eq_of_length (by simp)
  exact List.singleton_inj.mp (List.append_cancel_left heq)

theorem Yields.current {line : List Char} {token : String} (h : Yields s line token) : s.current <+: token.toList := by
  obtain ⟨hargv, -⟩ | ⟨token', hargv, hcurrent⟩ := outcome_leads s line
  · have hlength := h.length_le
    rw [Splitter.outcome, hargv, List.length_append, List.length_singleton] at hlength
    omega
  · rwa [concat_prefix_inj h hargv]

theorem Yields.congr {line line' : List Char} {token : String} (h : Yields s line token)
    (hline : splitChars s line = splitChars s' line') (hargv : s'.argv = s.argv) : Yields s' line' token := by
  unfold Yields Splitter.outcome at h ⊢
  rwa [hargv, ← hline]

/-- The token that a blank or the end of the line completes. -/
theorem Yields.pushed {line line' : List Char} {token : String} {cs : List Char} (h : Yields s line token)
    (hline : splitChars s line = splitChars s' line') (hargv : s'.argv = s.argv ++ [.ofList cs]) :
    token.toList = cs := by
  have hprefix := (outcome_leads s' line').argv_grows
  rw [hargv, ← hline] at hprefix
  rw [concat_prefix_inj h hprefix, String.toList_ofList]

/-! ## Between arguments -/

/-- The arguments behind the first, each with the space before it. -/
def following (args : List String) : List Char := args.flatMap fun arg => ' ' :: (quote arg).toList

theorem following_cons (arg : String) (args : List String) :
    following (arg :: args) = ' ' :: ((quote arg).toList ++ following args) := rfl

theorem head?_following (args : List String) : (following args).head? ≠ some '"' := by
  cases args with
  | nil => rintro ⟨⟩
  | cons arg args => simp [following_cons]

theorem finish_token (hquotes : s.inQuotes = false) (htoken : s.hasToken = true ∨ s.token ≠ []) :
    (s.pushBackslashes s.backslashes).finish = .start (s.argv ++ [.ofList s.token]) s.backslashes := by
  have hpush : ((s.pushBackslashes s.backslashes).hasToken || !(s.pushBackslashes s.backslashes).current.isEmpty) = true := by
    rw [Bool.or_eq_true, Bool.not_eq_true', List.isEmpty_eq_false_iff]
    exact htoken
  rw [Splitter.finish, if_pos hpush]
  simp only [Splitter.pushBackslashes, hquotes]
  rfl

theorem splitChars_completed (hc : isWhitespace c = true) (hquotes : s.inQuotes = false)
    (htoken : s.hasToken = true ∨ s.token ≠ []) :
    splitChars s (c :: rest) = splitChars (.start (s.argv ++ [.ofList s.token]) s.backslashes) rest := by
  rw [splitChars_blank hc hquotes, finish_token hquotes htoken]

theorem outcome_end (hquotes : s.inQuotes = false) (htoken : s.hasToken = true ∨ s.token ≠ []) :
    s.outcome [] = s.argv ++ [.ofList s.token] := by
  show ((splitChars s []).pushBackslashes (splitChars s []).backslashes).finish.argv = _
  rw [splitChars, finish_token hquotes htoken]
  rfl

theorem Yields.completed {args : List String} {token : String} (h : Yields s (following args) token)
    (hquotes : s.inQuotes = false) (htoken : s.hasToken = true ∨ s.token ≠ []) : token.toList = s.token := by
  cases args with
  | nil =>
    rw [Yields, following, List.flatMap_nil, outcome_end hquotes htoken] at h
    rw [concat_prefix_inj h (List.prefix_refl _), String.toList_ofList]
  | cons arg args =>
    rw [following_cons] at h
    exact h.pushed (splitChars_completed (by decide) hquotes htoken) rfl

/-! ## Unquoted arguments -/

theorem quote_unquoted {arg : String} (h : needsQuotes arg = false) :
    quote arg = arg ∧ arg.toList ≠ [] ∧ '"' ∉ arg.toList := by
  refine ⟨by rw [quote, h]; rfl, ?_, fun hmem => ?_⟩
  · rintro hnil
    simp [needsQuotes, hnil] at h
  · simp only [needsQuotes, Bool.or_eq_false_iff, List.any_eq_false] at h
    exact h.2 _ hmem (by decide)

/-- The backslashes carried over behind an unquoted argument. -/
def carried (backslashes : ℕ) : List Char → ℕ
  | [] => backslashes
  | c :: rest => if c = '\\' then carried (backslashes + 1) rest else carried 0 rest

theorem carried_eq_zero {cs : List Char} (hne : cs ≠ []) (backslashes : ℕ) :
    carried backslashes cs = 0 ↔ cs.getLast? ≠ some '\\' := by
  induction cs generalizing backslashes with
  | nil => exact absurd rfl hne
  | cons c cs ih =>
    cases cs with
    | nil => by_cases hc : c = '\\' <;> simp [carried, hc]
    | cons d cs =>
      rw [carried, List.getLast?_cons_cons]
      split
      · exact ih (List.cons_ne_nil d cs) _
      · exact ih (List.cons_ne_nil d cs) _

theorem splitChars_unquoted (rest cs : List Char) (hquote : '"' ∉ cs) (hblank : ∀ c ∈ cs, isWhitespace c = false)
    (s : Splitter) : ∃ s' : Splitter, splitChars s (cs ++ rest) = splitChars s' rest ∧ s'.argv = s.argv ∧
      s'.inQuotes = s.inQuotes ∧ s'.token = s.token ++ cs ∧ s'.backslashes = carried s.backslashes cs := by
  induction cs generalizing s with
  | nil => exact ⟨s, rfl, rfl, rfl, (List.append_nil _).symm, rfl⟩
  | cons c cs ih =>
    have hquote' : '"' ∉ cs := fun hmem => hquote (List.mem_cons_of_mem _ hmem)
    have hblank' : ∀ c ∈ cs, isWhitespace c = false := fun c hc => hblank c (List.mem_cons_of_mem _ hc)
    rw [List.cons_append, carried]
    split
    case isTrue hc =>
      obtain ⟨s', hline, hargv, hquotes, htoken, hcarried⟩ := ih hquote' hblank' { s with backslashes := s.backslashes + 1 }
      refine ⟨s', by rw [hc, splitChars_backslash, hline], hargv, hquotes, ?_, hcarried⟩
      rw [htoken, hc]
      simp [Splitter.token, List.replicate_succ']
    case isFalse hbackslash =>
      obtain ⟨s', hline, hargv, hquotes, htoken, hcarried⟩ :=
        ih hquote' hblank' { s with current := s.token ++ [c], backslashes := 0, hasToken := true }
      refine ⟨s', ?_, hargv, hquotes, ?_, hcarried⟩
      · rw [splitChars_plain hbackslash (fun heq => hquote (heq ▸ List.mem_cons_self)) (.inl (hblank c List.mem_cons_self)), hline]
      · rw [htoken]
        simp [Splitter.token]

/-- Outside of quotes, with no blank in the token. -/
structure Bare (s : Splitter) : Prop where
  inQuotes : s.inQuotes = false
  blankless : ∀ c ∈ s.token, isWhitespace c = false
  hasToken : s.hasToken = true → s.token ≠ []

theorem Bare.eq_start (h : Bare s) (htoken : s.token = []) : s = .start s.argv 0 := by
  obtain ⟨hcurrent, hbackslashes⟩ := List.append_eq_nil_iff.mp htoken
  rw [List.replicate_eq_nil_iff] at hbackslashes
  have hnone : s.hasToken = false := by
    by_contra hsome
    exact h.hasToken (by simpa using hsome) htoken
  have hquotes := h.inQuotes
  cases s
  simp_all [Splitter.start]

theorem bare_start (argv : List String) (backslashes : ℕ) : Bare (.start argv backslashes) := by
  refine ⟨rfl, fun c hc => ?_, fun h => by cases h⟩
  have hbackslash : c = '\\' := List.eq_of_mem_replicate (n := backslashes) hc
  rw [hbackslash]
  decide

theorem Bare.push (h : Bare s) (hc : isWhitespace c = false) (hquotes : s'.inQuotes = s.inQuotes)
    (htoken : s'.token = s.token ++ [c]) : Bare s' := by
  refine ⟨hquotes.trans h.inQuotes, fun d hd => ?_, fun _ => by simp [htoken]⟩
  rw [htoken, List.mem_append, List.mem_singleton] at hd
  obtain hd | rfl := hd
  · exact h.blankless d hd
  · exact hc

theorem Bare.not_completed {token : String} (h : Bare s)
    (hbroken : ∃ c ∈ token.toList, isWhitespace c = true) : token.toList ≠ s.token := by
  obtain ⟨c, hc, hblank⟩ := hbroken
  intro heq
  exact Bool.false_ne_true ((h.blankless c (heq ▸ hc)).symm.trans hblank)

/-- A token that is read outside of quotes has no blank. -/
theorem Bare.unquoted {token : String} (hbroken : ∃ c ∈ token.toList, isWhitespace c = true)
    (hrest : ∀ s, Bare s → ¬ Yields s rest token) (h : Bare s) (cs : List Char) (hquote : '"' ∉ cs) :
    ¬ Yields s (cs ++ rest) token := by
  induction cs generalizing s with
  | nil => exact hrest s h
  | cons c cs ih =>
    have hquote' : '"' ∉ cs := fun hmem => hquote (List.mem_cons_of_mem _ hmem)
    intro hyields
    rw [List.cons_append] at hyields
    by_cases hbackslash : c = '\\'
    · subst hbackslash
      have hbare : Bare { s with backslashes := s.backslashes + 1 } :=
        h.push (c := '\\') (by decide) rfl (by simp [Splitter.token, List.replicate_succ'])
      exact ih hbare hquote' (hyields.congr (splitChars_backslash s (cs ++ rest)) rfl)
    cases hblank : isWhitespace c with
    | true =>
      by_cases htoken : s.token = []
      · rw [h.eq_start htoken] at hyields
        have hnext := hyields.congr (splitChars_blank hblank rfl) rfl
        exact ih (bare_start s.argv 0) hquote' hnext
      · exact h.not_completed hbroken (hyields.pushed (splitChars_completed hblank h.inQuotes (.inr htoken)) rfl)
    | false =>
      have hplain : splitChars s (c :: (cs ++ rest)) = _ := splitChars_plain hbackslash
        (fun heq => hquote (heq ▸ List.mem_cons_self)) (.inl hblank)
      have hbare : Bare { s with current := s.token ++ [c], backslashes := 0, hasToken := true } :=
        h.push hblank rfl (by simp [Splitter.token])
      exact ih hbare hquote' (hyields.congr hplain rfl)

/-! ## Quoted arguments -/

theorem quote_quoted {arg : String} (h : needsQuotes arg = true) :
    (quote arg).toList = '"' :: quoteLoop 0 arg.toList := by
  rw [quote, h, if_pos rfl, String.toList_ofList]

/-- Behind an even run of backslashes a quoted argument is read whole. -/
theorem splitChars_quoted {arg : String} (h : needsQuotes arg = true) (argv : List String) {backslashes : ℕ}
    (heven : backslashes % 2 = 0) (hrest : rest.head? ≠ some '"') :
    splitChars (.start argv backslashes) ((quote arg).toList ++ rest) =
      splitChars ⟨argv, List.replicate (backslashes / 2) '\\' ++ arg.toList, false, true, 0⟩ rest := by
  rw [quote_quoted h, List.cons_append, splitChars_toggle heven (fun hquotes => by cases hquotes),
    splitChars_quoteLoop _ 0 (.inl rfl) rfl fun _ => hrest]
  simp [Splitter.start]

/-- No token with a blank can come of arguments where an unquoted one could not pass. -/
theorem Bare.not_yields {token : String} (hunquoted : needsQuotes token = false)
    (hbroken : ∃ c ∈ token.toList, isWhitespace c = true) (args : List String) (h : Bare s) :
    ¬ Yields s (following args) token := by
  induction args generalizing s with
  | nil =>
    intro hyields
    by_cases htoken : s.token = []
    · rw [h.eq_start htoken] at hyields
      have hnone : (Splitter.start s.argv 0).outcome (following []) = s.argv := by
        simp [following, Splitter.outcome, splitChars, Splitter.start, Splitter.pushBackslashes, Splitter.finish]
      have hlength : (s.argv ++ [token]).length ≤ _ := hyields.length_le
      rw [hnone, List.length_append, List.length_singleton] at hlength
      omega
    · exact h.not_completed hbroken (hyields.completed h.inQuotes (.inr htoken))
  | cons arg args ih =>
    intro hyields
    by_cases htoken : s.token = []
    · rw [h.eq_start htoken, following_cons] at hyields
      replace hyields := hyields.congr (splitChars_blank (by decide) rfl) rfl
      cases harg : needsQuotes arg with
      | false =>
        obtain ⟨heq, -, hquote⟩ := quote_unquoted harg
        rw [heq] at hyields
        exact Bare.unquoted hbroken (fun _ h => ih h) (bare_start s.argv 0) _ hquote hyields
      | true =>
        have hnext := hyields.congr (splitChars_quoted harg s.argv rfl (head?_following args)) rfl
        have htoken := hnext.completed rfl (.inl rfl)
        have heq : token = arg := String.toList_injective (by simpa [Splitter.token, Splitter.start] using htoken)
        rw [heq, harg] at hunquoted
        cases hunquoted
    · exact h.not_completed hbroken (hyields.completed h.inQuotes (.inr htoken))

/-- Outside of quotes the body is no token of its own: it is cut at a blank, or goes on behind what is there. -/
theorem Yields.body {token : String} (cs : List Char) (n : ℕ) (h : Yields s (quoteLoop n cs ++ rest) token)
    (hquotes : s.inQuotes = false) (hblank : ∀ c ∈ s.current, isWhitespace c = false) (hhas : s.hasToken = true)
    (hbackslashes : s.backslashes = 0) :
    ((∃ c ∈ cs, isWhitespace c = true) ∧ ∀ c ∈ token.toList, isWhitespace c = false) ∨
      s.current ++ List.replicate n '\\' ++ cs <+: token.toList := by
  induction cs generalizing s n with
  | nil =>
    have hline : splitChars s (quoteLoop n [] ++ rest) = _ :=
      splitChars_quoteLoop [] n (.inr fun _ hc => by cases hc) hbackslashes
        fun hopen => by rw [hquotes] at hopen; cases hopen
    exact .inr (h.congr hline rfl).current
  | cons c cs ih =>
    have hmore (next : Splitter) (m : ℕ) (hnext : splitChars s (quoteLoop n (c :: cs) ++ rest) =
        splitChars next (quoteLoop m cs ++ rest)) (hargv : next.argv = s.argv) (hquotes : next.inQuotes = false)
        (hblank : ∀ c ∈ next.current, isWhitespace c = false) (hhas : next.hasToken = true)
        (hbackslashes : next.backslashes = 0)
        (hcurrent : next.current ++ List.replicate m '\\' = s.current ++ List.replicate n '\\' ++ [c]) :
        ((∃ d ∈ c :: cs, isWhitespace d = true) ∧ ∀ d ∈ token.toList, isWhitespace d = false) ∨
          s.current ++ List.replicate n '\\' ++ c :: cs <+: token.toList := by
      obtain ⟨⟨d, hd, hblank⟩, hfree⟩ | hprefix := ih m (h.congr hnext hargv) hquotes hblank hhas hbackslashes
      · exact .inl ⟨⟨d, List.mem_cons_of_mem _ hd, hblank⟩, hfree⟩
      · rw [hcurrent, List.append_assoc, List.singleton_append] at hprefix
        exact .inr hprefix
    have hfree (d : Char) (hd : d ∈ s.current ++ List.replicate n '\\') : isWhitespace d = false := by
      obtain hd | hd := List.mem_append.mp hd
      · exact hblank d hd
      · rw [List.eq_of_mem_replicate hd]
        decide
    have hgrown (hc : isWhitespace c = false) :
        ∀ d ∈ s.current ++ List.replicate n '\\' ++ [c], isWhitespace d = false := by
      intro d hd
      obtain hd | hd := List.mem_append.mp hd
      · exact hfree d hd
      · rw [List.mem_singleton.mp hd]
        exact hc
    by_cases hbackslash : c = '\\'
    · refine hmore s (n + 1) (by rw [hbackslash, quoteLoop_backslash]) rfl hquotes hblank hhas hbackslashes ?_
      rw [List.replicate_succ', hbackslash, List.append_assoc]
    by_cases hquote : c = '"'
    · subst hquote
      exact hmore _ 0 (splitChars_quoteLoop_quote n cs hbackslashes) rfl hquotes (hgrown (by decide)) rfl rfl
        (List.append_nil _)
    have hline : splitChars s (quoteLoop n (c :: cs) ++ rest) = _ :=
      splitChars_quoteLoop_other n cs hbackslash hquote hbackslashes
    cases hspace : isWhitespace c with
    | true =>
      have hcut := hline.trans (splitChars_completed (s := { s with backslashes := n }) hspace hquotes (.inl hhas))
      have htoken : token.toList = s.current ++ List.replicate n '\\' := h.pushed hcut rfl
      exact .inl ⟨⟨c, List.mem_cons_self, hspace⟩, htoken ▸ hfree⟩
    | false =>
      have hplain := hline.trans (splitChars_plain (s := { s with backslashes := n }) hbackslash hquote (.inl hspace))
      exact hmore _ 0 hplain rfl hquotes (hgrown hspace) rfl rfl (List.append_nil _)

/-- Behind an odd run of backslashes a quoted argument is lost. -/
theorem not_yields_quoted {arg : String} (h : needsQuotes arg = true) (argv : List String) {backslashes : ℕ}
    (hodd : backslashes % 2 = 1) (rest : List Char) :
    ¬ Yields (.start argv backslashes) ((quote arg).toList ++ rest) arg := by
  intro hyields
  rw [quote_quoted h, List.cons_append] at hyields
  have hbody := (hyields.congr (splitChars_literal hodd) rfl).body arg.toList 0 rfl ?_ rfl rfl
  · obtain ⟨⟨c, hc, hblank⟩, hfree⟩ | hprefix := hbody
    · exact Bool.false_ne_true ((hfree c hc).symm.trans hblank)
    · have hlength := hprefix.length_le
      simp [Splitter.start] at hlength
      omega
  · intro c hc
    simp only [Splitter.start, List.nil_append, List.mem_append, List.mem_replicate, List.mem_singleton] at hc
    obtain ⟨-, rfl⟩ | rfl := hc <;> decide

/-! ## Command lines -/

theorem recoverable_cons (arg : String) (args : List String) :
    Recoverable (arg :: args) ↔ unbroken arg = true ∧ (args ≠ [] → endsClean arg = true ∧ Recoverable args) := by
  cases args with
  | nil => simp [Recoverable]
  | cons next args =>
    simp only [Recoverable, List.forall_mem_cons, List.dropLast_cons_cons, ne_eq, reduceCtorEq, not_false_eq_true,
      true_implies]
    constructor
    · rintro ⟨⟨harg, hargs⟩, hend, hends⟩
      exact ⟨harg, hend, hargs, hends⟩
    · rintro ⟨harg, hend, hargs, hends⟩
      exact ⟨⟨harg, hargs⟩, hend, hends⟩

theorem yields_of_outcome {line : List Char} {token : String} {args : List String}
    (h : s.outcome line = s.argv ++ token :: args) : Yields s line token := by
  rw [Yields, h, List.prefix_append_right_inj]
  exact List.prefix_append [token] args

theorem token_start (argv : List String) (backslashes : ℕ) :
    (Splitter.start argv backslashes).token = List.replicate backslashes '\\' := List.nil_append _

/-- The first of the arguments, given how it goes on behind its token. -/
theorem outcome_first (arg : String) (args argv : List String) (backslashes : ℕ)
    (hnext : ∀ s : Splitter, s.argv = argv → s.inQuotes = false → (s.hasToken = true ∨ s.token ≠ []) →
      (s.outcome (following args) = argv ++ arg :: args ↔
        s.token = arg.toList ∧ (args ≠ [] → s.backslashes = 0 ∧ Recoverable args))) :
    (Splitter.start argv backslashes).outcome ((quote arg).toList ++ following args) = argv ++ arg :: args ↔
      backslashes = 0 ∧ Recoverable (arg :: args) := by
  have hcongr {s' : Splitter} {line line' : List Char} (hline : splitChars (.start argv backslashes) line =
      splitChars s' line') : (Splitter.start argv backslashes).outcome line = s'.outcome line' := by
    unfold Splitter.outcome
    rw [hline]
  have hmore (n : ℕ) : List.replicate n '\\' ++ arg.toList = arg.toList ↔ n = 0 := by
    rw [List.append_left_eq_self, List.replicate_eq_nil_iff]
  rw [recoverable_cons]
  cases harg : needsQuotes arg with
  | false =>
    obtain ⟨heq, hne, hquote⟩ := quote_unquoted harg
    rw [heq]
    by_cases hblank : ∀ c ∈ arg.toList, isWhitespace c = false
    · have hunbroken : unbroken arg = true := by simpa [unbroken, harg] using hblank
      obtain ⟨s', hline, hargv, hquotes, htoken, hcarried⟩ :=
        splitChars_unquoted (following args) arg.toList hquote hblank (.start argv backslashes)
      have hsome : s'.token ≠ [] := by
        rw [htoken]
        exact List.append_ne_nil_of_right_ne_nil _ hne
      have hclean : s'.backslashes = 0 ↔ endsClean arg = true := by
        rw [hcarried, carried_eq_zero hne, endsClean, harg, Bool.false_or, bne_iff_ne]
      rw [hcongr hline, hnext s' hargv hquotes (.inr hsome), htoken, token_start, hmore, hclean, hunbroken]
      simp
    · push Not at hblank
      obtain ⟨c, hc, hspace⟩ := hblank
      have hbroken : ∃ c ∈ arg.toList, isWhitespace c = true := ⟨c, hc, by simpa using hspace⟩
      refine iff_of_false (fun hall => ?_) fun h => ?_
      · exact Bare.unquoted hbroken (fun _ h => h.not_yields harg hbroken args) (bare_start argv backslashes) _ hquote
          (yields_of_outcome hall)
      · have hunbroken := h.2.1
        simp only [unbroken, harg, Bool.false_or, Bool.not_eq_true', List.any_eq_false] at hunbroken
        exact hunbroken c hc (by simpa using hspace)
  | true =>
    have hunbroken : unbroken arg = true := by rw [unbroken, harg, Bool.true_or]
    have hclean : endsClean arg = true := by rw [endsClean, harg, Bool.true_or]
    obtain heven | hodd := Nat.mod_two_eq_zero_or_one backslashes
    · have hhalf : backslashes / 2 = 0 ↔ backslashes = 0 := by omega
      rw [hcongr (splitChars_quoted harg argv heven (head?_following args)), hnext _ rfl rfl (.inl rfl), hunbroken, hclean]
      simp only [Splitter.token, List.replicate_zero, List.append_nil, hmore, hhalf, true_and]
    · refine iff_of_false (fun hall => ?_) fun h => by omega
      exact not_yields_quoted harg argv hodd _ (yields_of_outcome hall)

/-- By induction on the arguments, whatever backslashes are carried over. -/
theorem outcome_iff (arg : String) (args argv : List String) (backslashes : ℕ) :
    (Splitter.start argv backslashes).outcome ((quote arg).toList ++ following args) = argv ++ arg :: args ↔
      backslashes = 0 ∧ Recoverable (arg :: args) := by
  induction args generalizing arg argv backslashes with
  | nil =>
    refine outcome_first arg [] argv backslashes fun s hargv hquotes htoken => ?_
    have htail : ([] : List String) ≠ [] → s.backslashes = 0 ∧ Recoverable [] := fun hne => absurd rfl hne
    rw [and_iff_left htail, following, List.flatMap_nil, outcome_end hquotes htoken, hargv, List.append_cancel_left_eq,
      List.singleton_inj]
    exact ⟨fun heq => by rw [← heq, String.toList_ofList], fun heq => by rw [heq, String.ofList_toList]⟩
  | cons next args ih =>
    refine outcome_first arg (next :: args) argv backslashes fun s hargv hquotes htoken => ?_
    subst hargv
    by_cases heq : s.token = arg.toList
    · have hstep : s.outcome (following (next :: args)) = (Splitter.start (s.argv ++ [arg]) s.backslashes).outcome
          ((quote next).toList ++ following args) := by
        rw [following_cons, Splitter.outcome, splitChars_completed (by decide) hquotes htoken, heq, String.ofList_toList]
        rfl
      have hsplit : s.argv ++ arg :: next :: args = s.argv ++ [arg] ++ next :: args := by simp
      rw [hstep, hsplit, ih next (s.argv ++ [arg]) s.backslashes]
      simp [heq]
    · refine iff_of_false (fun hall => ?_) fun h => heq h.1
      exact heq ((yields_of_outcome hall).completed hquotes htoken).symm

theorem toList_commandLine (path : String) (args : List String) :
    (commandLine path args).toList = (quote path).toList ++ following args := by
  have hfold (line : String) : (args.foldl (fun line arg => line.push ' ' ++ quote arg) line).toList =
      line.toList ++ following args := by
    induction args generalizing line with
    | nil => simp [following]
    | cons arg args ih =>
      rw [List.foldl_cons, ih, following_cons]
      simp
  exact hfold (quote path)

theorem split_commandLine_iff (path : String) (args : List String) :
    splitCommandLine (commandLine path args) = path :: args ↔ Recoverable (path :: args) := by
  have houtcome := outcome_iff path args [] 0
  rw [List.nil_append, and_iff_right rfl] at houtcome
  rw [← houtcome, ← toList_commandLine]
  rfl

/-- The backslash at the end of the first argument is carried over into the second. -/
theorem backslash_carriedOver : splitCommandLine (commandLine "a\\" ["b"]) ≠ ["a\\", "b"] := by
  decide +kernel

end
end SecOutfall.Agent
