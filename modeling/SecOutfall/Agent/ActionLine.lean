import SecOutfall.Agent.Pipeline
import SecOutfall.Agent.Quoting

/-! The task action line of `adapters/driven/launcher/schedtask.rs`, and the three quoters behind the argv
splitter of its tests, which reads a line as the started process does. -/
namespace SecOutfall.ActionLine
open Agent
set_option autoImplicit false

/-! ## Model -/

/-- An empty value, and one with a special character, goes between quotes. -/
def quoteWith (specials : List Char) (value : String) : String :=
  if value.toList.isEmpty || value.toList.any specials.contains then .ofList ('"' :: quoteLoop 0 value.toList)
  else value

def quoteArgument : String → String := quoteWith [' ', '\t', '\n', '\x0b', '"']

/-- `quote` of the user actor's `launcher/app.rs`. -/
def appQuote : String → String := quoteWith [' ', '\t', '\n', '"']

def actionCommandLine (helper : String) (spec : LaunchSpec) : String :=
  spec.args.foldl (fun line arg => line.push ' ' ++ quoteArgument arg)
    (quoteArgument helper ++ " --path " ++ quoteArgument spec.path ++ " --")

example : actionCommandLine "C:\\Tools\\runas.exe" ⟨"C:\\Targets\\evil.exe", ["-k", "v 1"]⟩ =
    "C:\\Tools\\runas.exe --path C:\\Targets\\evil.exe -- -k \"v 1\"" := by
  decide +kernel

structure ArgvSplitter where
  out : List String
  current : List Char
  inQuotes : Bool
  backslashes : ℕ
  started : Bool
  deriving DecidableEq, Repr

namespace ArgvSplitter

def start (out : List String) : ArgvSplitter := ⟨out, [], false, 0, false⟩

def pushBackslashes (s : ArgvSplitter) (count : ℕ) : ArgvSplitter :=
  { s with current := s.current ++ List.replicate count '\\', backslashes := 0 }

/-- What a blank and the end of the line do outside of quotes. -/
def finish (s : ArgvSplitter) : ArgvSplitter :=
  let s := s.pushBackslashes s.backslashes
  if s.started || !s.current.isEmpty then
    { s with out := s.out ++ [.ofList s.current], current := [], started := false }
  else { s with started := false }

def next (s : ArgvSplitter) (c : Char) : ArgvSplitter :=
  if c = '\\' then { s with backslashes := s.backslashes + 1 }
  else if c = '"' then
    let pushed := s.pushBackslashes (s.backslashes / 2)
    if s.backslashes % 2 = 1 then { pushed with current := pushed.current ++ ['"'], started := true }
    else { pushed with inQuotes := !s.inQuotes, started := true }
  else if (c = ' ' || c = '\t') && !s.inQuotes then s.finish
  else
    let pushed := s.pushBackslashes s.backslashes
    { pushed with current := pushed.current ++ [c], started := true }

end ArgvSplitter

/-- `split_command_line` of the tests. -/
def splitCommandLine (line : String) : List String :=
  (line.toList.foldl ArgvSplitter.next (.start [])).finish.out

/-! ## Runs of characters -/

section
variable {s : ArgvSplitter} {c : Char}

theorem next_plain (hbackslash : c ≠ '\\') (hquote : c ≠ '"') (hblank : (c ≠ ' ' ∧ c ≠ '\t') ∨ s.inQuotes = true) :
    s.next c = { s.pushBackslashes s.backslashes with
      current := s.current ++ List.replicate s.backslashes '\\' ++ [c], started := true } := by
  have hpasses : ¬ ((c = ' ' || c = '\t') && !s.inQuotes) = true := by
    obtain ⟨hspace, htab⟩ | hquotes := hblank
    · simp [hspace, htab]
    · simp [hquotes]
  rw [ArgvSplitter.next, if_neg hbackslash, if_neg hquote, if_neg hpasses]
  rfl

theorem foldl_backslashes (s : ArgvSplitter) (n : ℕ) :
    (List.replicate n '\\').foldl ArgvSplitter.next s = { s with backslashes := s.backslashes + n } := by
  induction n generalizing s with
  | zero => rfl
  | succ n ih =>
    rw [List.replicate_succ, List.foldl_cons, ih]
    show { s with backslashes := s.backslashes + 1 + n } = _
    rw [Nat.add_assoc, Nat.add_comm 1 n]

/-- An odd run of backslashes makes the quote one of the value. -/
theorem next_literal {n : ℕ} (h : s.backslashes = n * 2 + 1) :
    s.next '"' = { s.pushBackslashes n with
      current := s.current ++ List.replicate n '\\' ++ ['"'], started := true } := by
  have hhalf : s.backslashes / 2 = n := by omega
  rw [ArgvSplitter.next, if_neg (by decide), if_pos rfl]
  simp only [hhalf, if_pos (show s.backslashes % 2 = 1 by omega)]
  rfl

theorem next_toggle {n : ℕ} (h : s.backslashes = n * 2) :
    s.next '"' = { s.pushBackslashes n with inQuotes := !s.inQuotes, started := true } := by
  have hhalf : s.backslashes / 2 = n := by omega
  rw [ArgvSplitter.next, if_neg (by decide), if_pos rfl]
  simp only [hhalf, if_neg (show ¬ s.backslashes % 2 = 1 by omega)]

/-- The body of a quoted value comes back whole, whatever is in it. -/
theorem foldl_quoteLoop (cs : List Char) (n : ℕ) (hquotes : s.inQuotes = true) (hbackslashes : s.backslashes = 0) :
    (quoteLoop n cs).foldl ArgvSplitter.next s =
      { s with current := s.current ++ List.replicate n '\\' ++ cs, inQuotes := false, started := true } := by
  induction cs generalizing s n with
  | nil =>
    rw [quoteLoop, List.foldl_append, foldl_backslashes, List.foldl_cons, List.foldl_nil,
      next_toggle (n := n) (by simp [hbackslashes])]
    simp [ArgvSplitter.pushBackslashes, hquotes, hbackslashes]
  | cons c cs ih =>
    rw [quoteLoop]
    by_cases hbackslash : c = '\\'
    · rw [if_pos hbackslash, ih (n + 1) hquotes hbackslashes, hbackslash, List.replicate_succ']
      simp
    rw [if_neg hbackslash]
    by_cases hquote : c = '"'
    · rw [if_pos hquote, List.foldl_append, foldl_backslashes, List.foldl_cons,
        next_literal (n := n) (by simp [hbackslashes]),
        ih]
      · simp [ArgvSplitter.pushBackslashes, hbackslashes, hquote]
      · exact hquotes
      · rfl
    · rw [if_neg hquote, List.foldl_append, foldl_backslashes, List.foldl_cons,
        next_plain hbackslash hquote (.inr (by exact hquotes)), ih]
      · simp [ArgvSplitter.pushBackslashes, hbackslashes]
      · exact hquotes
      · rfl

/-- An unquoted value is gathered as it is; its last backslashes are still pending. -/
theorem foldl_unquoted (cs : List Char) (hplain : ∀ c ∈ cs, c ≠ '"' ∧ c ≠ ' ' ∧ c ≠ '\t') (s : ArgvSplitter) :
    (cs.foldl ArgvSplitter.next s).out = s.out ∧ (cs.foldl ArgvSplitter.next s).inQuotes = s.inQuotes ∧
      (cs.foldl ArgvSplitter.next s).current ++ List.replicate (cs.foldl ArgvSplitter.next s).backslashes '\\' =
        s.current ++ List.replicate s.backslashes '\\' ++ cs := by
  induction cs generalizing s with
  | nil => exact ⟨rfl, rfl, (List.append_nil _).symm⟩
  | cons c cs ih =>
    obtain ⟨⟨hquote, hspace, htab⟩, hrest⟩ := List.forall_mem_cons.mp hplain
    obtain ⟨hout, hquotes, htoken⟩ := ih hrest (s.next c)
    rw [List.foldl_cons, hout, hquotes, htoken]
    by_cases hbackslash : c = '\\'
    · rw [hbackslash]
      simp [ArgvSplitter.next, List.replicate_succ']
    · rw [next_plain hbackslash hquote (.inl ⟨hspace, htab⟩)]
      simp [ArgvSplitter.pushBackslashes]

end

/-! ## Values -/

section
variable {specials : List Char}

/-- What every quoter here puts between quotes. -/
def Covers (specials : List Char) : Prop := '"' ∈ specials ∧ ' ' ∈ specials ∧ '\t' ∈ specials

/-- Between two values the splitter starts anew. -/
theorem finish_eq {s : ArgvSplitter} {value : List Char} (hquotes : s.inQuotes = false)
    (htoken : s.current ++ List.replicate s.backslashes '\\' = value) (hsome : s.started = true ∨ value ≠ []) :
    s.finish = .start (s.out ++ [.ofList value]) := by
  have hpushed : (s.started || !value.isEmpty) = true := by
    obtain h | h := hsome <;> simp [h]
  simp only [ArgvSplitter.finish, ArgvSplitter.pushBackslashes, htoken, hpushed, if_true, ArgvSplitter.start, hquotes]

theorem finish_quoteWith (hcovers : Covers specials) (out : List String) (value : String) :
    ((quoteWith specials value).toList.foldl ArgvSplitter.next (.start out)).finish = .start (out ++ [value]) ∧
      ((quoteWith specials value).toList.foldl ArgvSplitter.next (.start out)).inQuotes = false := by
  rw [quoteWith]
  split
  case isTrue =>
    rw [String.toList_ofList, List.foldl_cons, next_toggle (n := 0) rfl, foldl_quoteLoop _ 0 rfl rfl]
    have hvalue : out ++ [.ofList value.toList] = out ++ [value] := by rw [String.ofList_toList]
    rw [← hvalue]
    exact ⟨finish_eq rfl (by simp [ArgvSplitter.pushBackslashes, ArgvSplitter.start]) (.inl rfl), rfl⟩
  case isFalse hplain =>
    obtain ⟨hquote, hspace, htab⟩ := hcovers
    simp only [Bool.or_eq_true, List.isEmpty_iff, List.any_eq_true, List.contains_iff_mem, not_or, not_exists, not_and]
      at hplain
    have hfree : ∀ c ∈ value.toList, c ≠ '"' ∧ c ≠ ' ' ∧ c ≠ '\t' := fun c hc =>
      ⟨fun h => hplain.2 c hc (h ▸ hquote), fun h => hplain.2 c hc (h ▸ hspace), fun h => hplain.2 c hc (h ▸ htab)⟩
    obtain ⟨hout, hquotes, htoken⟩ := foldl_unquoted value.toList hfree (.start out)
    refine ⟨?_, hquotes⟩
    rw [finish_eq hquotes htoken (.inr (by simpa [ArgvSplitter.start] using hplain.1)), hout]
    simp [ArgvSplitter.start]

/-- A blank behind a value ends it. -/
theorem foldl_quoteWith_blank (hcovers : Covers specials) (out : List String) (value : String) (rest : List Char) :
    ((quoteWith specials value).toList ++ ' ' :: rest).foldl ArgvSplitter.next (.start out) =
      rest.foldl ArgvSplitter.next (.start (out ++ [value])) := by
  obtain ⟨hfinish, hquotes⟩ := finish_quoteWith hcovers out value
  have hblank : (((quoteWith specials value).toList.foldl ArgvSplitter.next (.start out)).next ' ') =
      .start (out ++ [value]) := by
    rw [ArgvSplitter.next, if_neg (by decide), if_neg (by decide), if_pos (by simp [hquotes]), hfinish]
  rw [List.foldl_append, List.foldl_cons, hblank]

/-- By induction on the values: whatever was split off before stays. -/
theorem foldl_joined (hcovers : Covers specials) (values : List String) (out : List String) :
    ((" ".intercalate (values.map (quoteWith specials))).toList.foldl ArgvSplitter.next (.start out)).finish.out =
      out ++ values := by
  induction values generalizing out with
  | nil => simp [ArgvSplitter.finish, ArgvSplitter.start, ArgvSplitter.pushBackslashes]
  | cons value values ih =>
    cases values with
    | nil =>
      rw [List.map_singleton, String.intercalate_singleton, (finish_quoteWith hcovers out value).1]
      rfl
    | cons value' values =>
      have hblank : " ".toList = [' '] := rfl
      rw [List.map_cons, List.map_cons, String.intercalate_cons_cons, ← List.map_cons, String.toList_append,
        String.toList_append, hblank, List.append_assoc, List.singleton_append, foldl_quoteWith_blank hcovers, ih,
        List.append_assoc]
      rfl

theorem split_joined (hcovers : Covers specials) (values : List String) :
    splitCommandLine (" ".intercalate (values.map (quoteWith specials))) = values :=
  foldl_joined hcovers values []

end

/-! ## The three quoters -/

theorem quote_eq : quote = appQuote := by
  funext value
  have hspecials : (fun c => c == ' ' || c == '\t' || c == '\n' || c == '"') =
      ([' ', '\t', '\n', '"'] : List Char).contains := by
    funext c
    simp [Bool.or_assoc, Bool.beq_eq_decide_eq]
  rw [quote, needsQuotes, hspecials, appQuote, quoteWith]

/-- The action line is its parts, quoted and joined by blanks. -/
theorem actionCommandLine_eq (helper : String) (spec : LaunchSpec) :
    actionCommandLine helper spec =
      " ".intercalate ((helper :: "--path" :: spec.path :: "--" :: spec.args).map quoteArgument) := by
  have hfold (args : List String) (line : String) :
      args.foldl (fun line arg => line.push ' ' ++ quoteArgument arg) line =
        " ".intercalate (line :: args.map quoteArgument) := by
    induction args generalizing line with
    | nil => exact String.intercalate_singleton.symm
    | cons arg args ih =>
      have hblank : line.push ' ' = line ++ " " := rfl
      rw [List.foldl_cons, ih, hblank, String.intercalate_cons_append, List.map_cons, String.intercalate_cons_cons]
  have hpath : quoteArgument "--path" = "--path" := by decide +kernel
  have hdashes : quoteArgument "--" = "--" := by decide +kernel
  have hfirst : " --path " = " " ++ "--path" ++ " " := by decide +kernel
  have hlast : " --" = " " ++ "--" := by decide +kernel
  rw [actionCommandLine, hfold, hfirst, hlast]
  simp only [List.map_cons, hpath, hdashes, String.intercalate_cons_cons, String.intercalate_cons_append,
    String.append_assoc]

theorem hostileArguments_keptApart (helper : String) (spec : LaunchSpec) (args : List String) :
    splitCommandLine (actionCommandLine helper spec) = helper :: "--path" :: spec.path :: "--" :: spec.args ∧
      splitCommandLine (" ".intercalate (args.map quote)) = args ∧
      splitCommandLine (" ".intercalate (args.map quoteArgument)) = args ∧
      splitCommandLine (" ".intercalate (args.map appQuote)) = args := by
  have happ : splitCommandLine (" ".intercalate (args.map appQuote)) = args := split_joined (by simp [Covers]) args
  refine ⟨?_, quote_eq ▸ happ, split_joined (by simp [Covers]) args, happ⟩
  rw [actionCommandLine_eq]
  exact split_joined (by simp [Covers]) _

end SecOutfall.ActionLine
