import Mathlib.Data.List.Nodup
import SecOutfall.Agent.Scope
import SecOutfall.Foundations.Decimal
import SecOutfall.Foundations.Runs

/-! The drops collector: the jobs of `plugins/drops_collector.rs` and the copy names of
`domain/drop_copy.rs`.

The queue has one worker, so jobs run one after another. A job carries what the file system, the state lock
and the uploader answer it. A failed publish is only logged. SHA-256 is a parameter. -/
namespace SecOutfall.Collector
open Agent Decimal Runs
set_option autoImplicit false

/-! ## Copy names -/

def maxExtensionLen : ℕ := 16

def fallbackExtension : String := "bin"

def sanitizeExtension (extension : String) : String :=
  let cleaned := (extension.toList.take maxExtensionLen).filter fun c => c.isAlphanum || c == '-' || c == '_'
  if cleaned.isEmpty then fallbackExtension else .ofList (cleaned.map Char.toLower)

/-- `{byte:02x}`. -/
def hexByte (byte : UInt8) : List Char := [Nat.digitChar (byte.toNat / 16), Nat.digitChar (byte.toNat % 16)]

def hash8 (digest : Vector UInt8 32) : String := .ofList ((digest.toList.take 4).flatMap hexByte)

def copyFileName (session : UInt32) (seq : UInt64) (hash8 sanitizedExtension : String) : String :=
  session.toNat.repr ++ "-" ++ seq.toNat.repr ++ "-" ++ hash8 ++ "." ++ sanitizedExtension

/-! ## Jobs -/

structure DropsConfig where
  maxSize : UInt64
  limitPerSession : UInt32
  uploadUri : Option String

/-- One `read` of the source: no bytes are its end, and `written` is what `write_all` says of them. -/
inductive ReadAnswer where
  | failed
  | chunk (bytes : List UInt8) (written : Bool)
  deriving DecidableEq, Repr

/-- `sessionId` is 0 without a session; `stat` and `copySize` are the lengths of the source before and of the
copy after. -/
structure Job where
  source : String
  sessionId : UInt32
  stat : Option UInt64
  dirReady : Bool
  opened : Bool
  created : Bool
  reads : List ReadAnswer
  synced : Bool
  renamed : Bool
  copySize : Option UInt64
  uploaded : Bool

structure Copy where
  name : String
  content : List UInt8
  deriving DecidableEq, Repr

inductive DropEvent where
  | copied (source copy : String) (sizeBytes : UInt64)
  | uploaded (copy : String) (sizeBytes : UInt64)
  deriving DecidableEq, Repr

/-- `copies` are the renamed files of this boot, `published` what was handed to the broker. -/
structure Inner where
  seenHashes : List String
  collected : UInt32
  nameSeq : UInt64
  copies : List Copy
  published : List DropEvent

def boot : Inner := ⟨[], 0, 0, [], []⟩

/-- The loop of `copy_capped` behind the bytes `copied`. -/
def copyLoop (maxBytes : UInt64) (copied : List UInt8) : List ReadAnswer → Option (List UInt8)
  | [] => some copied
  | .failed :: _ => none
  | .chunk bytes written :: rest =>
    if bytes.isEmpty then some copied
    else if maxBytes.toNat < copied.length + bytes.length then none
    else if written then copyLoop maxBytes (copied ++ bytes) rest
    else none

/-- The bytes in the part file, if all went well. -/
def copyCapped (maxBytes : UInt64) (job : Job) : Option (List UInt8) :=
  if job.opened && job.created then
    match copyLoop maxBytes [] job.reads with
    | some content => if job.synced then some content else none
    | none => none
  else none

section
variable (config : DropsConfig) (sha256 : List UInt8 → Vector UInt8 32)

def Inner.isDuplicate (s : Inner) (content : List UInt8) : Bool :=
  s.seenHashes.contains (hash8 (sha256 content))

/-- The copy's name and size. -/
def persistCopy (s : Inner) (job : Job) : Inner × Option (String × UInt64) :=
  let seq := s.nameSeq
  let s := { s with nameSeq := seq + 1 }
  if job.dirReady then
    match copyCapped config.maxSize job with
    | none => (s, none)
    | some content =>
      let hash := hash8 (sha256 content)
      if s.isDuplicate sha256 content then (s, none)
      else
        let copyName := copyFileName job.sessionId seq hash (sanitizeExtension ((extensionOf job.source).getD ""))
        if job.renamed then
          ({ s with seenHashes := hash :: s.seenHashes, copies := s.copies ++ [⟨copyName, content⟩] },
            some (copyName, job.copySize.getD 0))
        else (s, none)
  else (s, none)

def reportAndUpload (s : Inner) (job : Job) (copyName : String) (copiedBytes : UInt64) : Inner :=
  let s := { s with published := s.published ++ [.copied job.source copyName copiedBytes] }
  match config.uploadUri with
  | none => s
  | some _ =>
    if job.uploaded then { s with published := s.published ++ [.uploaded copyName copiedBytes] } else s

def collectDrop (s : Inner) (job : Job) : Inner :=
  if config.limitPerSession ≤ s.collected then s
  else
    match job.stat with
    | none => s
    | some size =>
      if config.maxSize < size then s
      else
        match persistCopy config sha256 s job with
        | (s, none) => s
        | (s, some (copyName, copiedBytes)) =>
          reportAndUpload config { s with collected := s.collected + 1 } job copyName copiedBytes

/-! ## Bookkeeping -/

/-- A file name: not empty, no step in the tree, no separator and no stream. -/
def isComponent (name : String) : Bool :=
  name != "" && name != "." && name != ".." && name.toList.all fun c => c != '/' && c != '\\' && c != ':'

structure Bookkept (s : Inner) : Prop where
  limited : s.collected ≤ config.limitPerSession
  counted : s.collected.toNat = s.copies.length
  hashes : ∀ hash, hash ∈ s.seenHashes ↔ ∃ copy ∈ s.copies, hash8 (sha256 copy.content) = hash
  capped : ∀ copy ∈ s.copies, copy.content.length ≤ config.maxSize.toNat
  distinct : (s.copies.map (·.name)).Nodup
  components : ∀ copy ∈ s.copies, isComponent copy.name = true

/-- The bytes a job has copied when it comes to the duplicate check. -/
def copiedContent (s : Inner) (job : Job) : Option (List UInt8) :=
  if config.limitPerSession ≤ s.collected then none
  else
    match job.stat with
    | none => none
    | some size =>
      if config.maxSize < size then none else if job.dirReady then copyCapped config.maxSize job else none

/-- What the job skips as a duplicate has been collected. -/
def SkipsKnown (s : Inner) (job : Job) : Prop :=
  ∀ content ∈ copiedContent config s job, s.isDuplicate sha256 content = true →
    ∃ copy ∈ s.copies, copy.content = content

/-- No other content collected so far has the first four digest bytes of what the job copied. -/
def NoCollision (s : Inner) (job : Job) : Prop :=
  ∀ content ∈ copiedContent config s job, ∀ copy ∈ s.copies,
    (sha256 copy.content).toList.take 4 = (sha256 content).toList.take 4 → copy.content = content

end

/-! ## Names of copies -/

theorem copyFileName_toList (session : UInt32) (seq : UInt64) (hash extension : String) :
    (copyFileName session seq hash extension).toList = Nat.toDigits 10 session.toNat ++
      '-' :: (Nat.toDigits 10 seq.toNat ++ '-' :: (hash.toList ++ '.' :: extension.toList)) := by
  simp [copyFileName, String.toList_append, Nat.toList_repr]

theorem hash8_toList (digest : Vector UInt8 32) :
    (hash8 digest).toList = (digest.toList.take 4).flatMap hexByte := by
  rw [hash8, String.toList_ofList]

theorem length_hash8 (digest : Vector UInt8 32) : (hash8 digest).toList.length = 8 := by
  have hbyte : (fun byte => (hexByte byte).length) = fun _ => 2 := rfl
  rw [hash8_toList, List.length_flatMap, hbyte]
  simp

/-- The hash stands in the name. -/
theorem copyFileName_hash {session session' : UInt32} {seq seq' : UInt64} {digest digest' : Vector UInt8 32}
    {extension extension' : String}
    (h : copyFileName session seq (hash8 digest) extension = copyFileName session' seq' (hash8 digest') extension') :
    hash8 digest = hash8 digest' := by
  have hlist := congrArg String.toList h
  rw [copyFileName_toList, copyFileName_toList] at hlist
  obtain ⟨-, hseq⟩ := append_dash_inj (dash_notMem_toDigits _) (dash_notMem_toDigits _) hlist
  obtain ⟨-, hhash⟩ := append_dash_inj (dash_notMem_toDigits _) (dash_notMem_toDigits _) hseq
  have hlength : (hash8 digest).toList.length = (hash8 digest').toList.length := by
    rw [length_hash8, length_hash8]
  exact String.toList_injective (List.append_inj_left hhash hlength)

/-- Letters, digits and what joins them in a name. -/
def isPlain (c : Char) : Bool := c.isAlphanum || c == '-' || c == '_' || c == '.'

theorem isPlain_of_mem_toDigits {n : ℕ} {c : Char} (hc : c ∈ Nat.toDigits 10 n) : isPlain c = true := by
  have hdigit := Nat.isDigit_of_mem_toDigits (by decide) (by decide) hc
  simp [isPlain, Char.isAlphanum, hdigit]

theorem isPlain_digitChar {n : ℕ} (hn : n < 16) : isPlain (Nat.digitChar n) = true := by
  have hall : ∀ n < 16, isPlain (Nat.digitChar n) = true := by decide
  exact hall n hn

theorem isPlain_hash8 {digest : Vector UInt8 32} {c : Char} (hc : c ∈ (hash8 digest).toList) : isPlain c = true := by
  rw [hash8_toList, List.mem_flatMap] at hc
  obtain ⟨byte, -, hbyte⟩ := hc
  have hlt := byte.toNat_lt
  obtain rfl | hlow := List.mem_cons.mp hbyte
  · exact isPlain_digitChar (by omega)
  · rw [List.mem_singleton.mp hlow]
    exact isPlain_digitChar (by omega)

theorem isPlain_toLower {c : Char} (hc : (c.isAlphanum || c == '-' || c == '_') = true) : isPlain c.toLower = true := by
  have hascii : c.toNat < 128 := by
    delta Char.isAlphanum Char.isAlpha Char.isUpper Char.isLower Char.isDigit at hc
    simp only [Bool.or_eq_true, Bool.and_eq_true, decide_eq_true_eq, beq_iff_eq, ge_iff_le,
      UInt32.le_iff_toNat_le] at hc
    obtain (((⟨-, h⟩ | ⟨-, h⟩) | ⟨-, h⟩) | rfl) | rfl := hc
    · exact Nat.lt_of_le_of_lt h (by decide)
    · exact Nat.lt_of_le_of_lt h (by decide)
    · exact Nat.lt_of_le_of_lt h (by decide)
    · decide
    · decide
  have hall : ∀ n < 128, let c := Char.ofNat n
      (c.isAlphanum || c == '-' || c == '_') = true → isPlain c.toLower = true := by decide
  have hchar := hall c.toNat hascii
  simp only [Char.ofNat_toNat] at hchar
  exact hchar hc

theorem isPlain_sanitizeExtension {extension : String} {c : Char} (hc : c ∈ (sanitizeExtension extension).toList) :
    isPlain c = true := by
  unfold sanitizeExtension at hc
  dsimp only at hc
  split at hc
  case isTrue =>
    have hall : fallbackExtension.toList.all isPlain = true := by decide
    exact List.all_eq_true.mp hall c hc
  case isFalse =>
    rw [String.toList_ofList] at hc
    obtain ⟨kept, hkept, rfl⟩ := List.mem_map.mp hc
    exact isPlain_toLower (List.mem_filter.mp hkept).2

/-- Every generated name is one component: plain characters, and a dash among them. -/
theorem isComponent_copyFileName (session : UInt32) (seq : UInt64) (digest : Vector UInt8 32) (extension : String) :
    isComponent (copyFileName session seq (hash8 digest) (sanitizeExtension extension)) = true := by
  have hdash : '-' ∈ (copyFileName session seq (hash8 digest) (sanitizeExtension extension)).toList := by
    rw [copyFileName_toList]
    simp
  have hplain : ∀ c ∈ (copyFileName session seq (hash8 digest) (sanitizeExtension extension)).toList,
      isPlain c = true := by
    intro c hc
    rw [copyFileName_toList, List.mem_append, List.mem_cons, List.mem_append, List.mem_cons, List.mem_append,
      List.mem_cons] at hc
    obtain hc | rfl | hc | rfl | hc | rfl | hc := hc
    · exact isPlain_of_mem_toDigits hc
    · decide
    · exact isPlain_of_mem_toDigits hc
    · decide
    · exact isPlain_hash8 hc
    · decide
    · exact isPlain_sanitizeExtension hc
  generalize copyFileName session seq (hash8 digest) (sanitizeExtension extension) = name at hdash hplain
  have hne (other : String) (hother : '-' ∉ other.toList) : (name != other) = true := by
    rw [bne_iff_ne]
    rintro rfl
    exact hother hdash
  rw [isComponent, hne "" (by decide), hne "." (by decide), hne ".." (by decide), Bool.true_and, Bool.true_and,
    Bool.true_and, List.all_eq_true]
  intro c hc
  have hc := hplain c hc
  have hsplit : c ≠ '/' ∧ c ≠ '\\' ∧ c ≠ ':' := by
    refine ⟨?_, ?_, ?_⟩ <;> (rintro rfl; exact absurd hc (by decide))
  simp [hsplit]

/-! ## What a job does -/

section
variable {config : DropsConfig} {sha256 : List UInt8 → Vector UInt8 32} {s : Inner}

theorem copyLoop_le {maxBytes : UInt64} {copied content : List UInt8} {reads : List ReadAnswer}
    (hcopied : copied.length ≤ maxBytes.toNat) (h : copyLoop maxBytes copied reads = some content) :
    content.length ≤ maxBytes.toNat := by
  induction reads generalizing copied with
  | nil =>
    cases h
    exact hcopied
  | cons read rest ih =>
    cases read with
    | failed => cases h
    | chunk bytes written =>
      rw [copyLoop] at h
      split at h
      · cases h
        exact hcopied
      · split at h
        · cases h
        · rename_i hfits
          split at h
          · refine ih ?_ h
            rw [List.length_append]
            exact Nat.not_lt.mp hfits
          · cases h

theorem copyCapped_le {maxBytes : UInt64} {job : Job} {content : List UInt8}
    (h : copyCapped maxBytes job = some content) : content.length ≤ maxBytes.toNat := by
  unfold copyCapped at h
  split at h
  · cases hloop : copyLoop maxBytes [] job.reads with
    | none => simp [hloop] at h
    | some copied =>
      simp only [hloop] at h
      split at h
      · cases h
        exact copyLoop_le (Nat.zero_le _) hloop
      · cases h
  · cases h

/-- Nothing of the bookkeeping has changed. -/
structure SameBooks (s s' : Inner) : Prop where
  seenHashes : s'.seenHashes = s.seenHashes
  collected : s'.collected = s.collected
  copies : s'.copies = s.copies
  published : s'.published = s.published

/-- One more copy, of content new by its hash, with everything that is booked for it. -/
structure Collects (config : DropsConfig) (sha256 : List UInt8 → Vector UInt8 32) (s : Inner) (job : Job)
    (content : List UInt8) (s' : Inner) : Prop where
  limit : s.collected < config.limitPerSession
  copied : copiedContent config s job = some content
  new : hash8 (sha256 content) ∉ s.seenHashes
  seenHashes : s'.seenHashes = hash8 (sha256 content) :: s.seenHashes
  collected : s'.collected = s.collected + 1
  copies : s'.copies = s.copies ++ [⟨copyFileName job.sessionId s.nameSeq (hash8 (sha256 content))
    (sanitizeExtension ((extensionOf job.source).getD "")), content⟩]

theorem reportAndUpload_books (s : Inner) (job : Job) (copyName : String) (copiedBytes : UInt64) :
    (reportAndUpload config s job copyName copiedBytes).seenHashes = s.seenHashes ∧
      (reportAndUpload config s job copyName copiedBytes).collected = s.collected ∧
      (reportAndUpload config s job copyName copiedBytes).copies = s.copies := by
  unfold reportAndUpload
  cases config.uploadUri with
  | none => exact ⟨rfl, rfl, rfl⟩
  | some uri => cases job.uploaded <;> exact ⟨rfl, rfl, rfl⟩

/-- A job books a copy or leaves the books alone. -/
theorem collectDrop_cases (s : Inner) (job : Job) :
    SameBooks s (collectDrop config sha256 s job) ∨
      ∃ content, Collects config sha256 s job content (collectDrop config sha256 s job) := by
  have hsame : SameBooks s s := ⟨rfl, rfl, rfl, rfl⟩
  have hnumbered : SameBooks s { s with nameSeq := s.nameSeq + 1 } := ⟨rfl, rfl, rfl, rfl⟩
  unfold collectDrop
  split
  case isTrue => exact .inl hsame
  case isFalse hlimit =>
    cases hstat : job.stat with
    | none => exact .inl hsame
    | some size =>
      dsimp only
      split
      case isTrue => exact .inl hsame
      case isFalse hsize =>
        unfold persistCopy
        dsimp only
        cases hdir : job.dirReady with
        | false => exact .inl hnumbered
        | true =>
          rw [if_pos rfl]
          cases hcopy : copyCapped config.maxSize job with
          | none => exact .inl hnumbered
          | some content =>
            dsimp only
            cases hseen : Inner.isDuplicate sha256 { s with nameSeq := s.nameSeq + 1 } content with
            | true => exact .inl hnumbered
            | false =>
              cases hrenamed : job.renamed with
              | false => exact .inl hnumbered
              | true =>
                have hnew : hash8 (sha256 content) ∉ s.seenHashes := by
                  intro hmem
                  exact Bool.false_ne_true (hseen.symm.trans (List.contains_iff_mem.mpr hmem))
                have hcopied : copiedContent config s job = some content := by
                  simp [copiedContent, hlimit, hstat, hsize, hdir, hcopy]
                simp only [Bool.false_eq_true, if_false, if_true]
                exact .inr ⟨content, UInt32.not_le.mp hlimit, hcopied, hnew, (reportAndUpload_books _ _ _ _).1,
                  (reportAndUpload_books _ _ _ _).2.1, (reportAndUpload_books _ _ _ _).2.2⟩

/-! ## Invariants -/

/-- The books are right, and every name carries the hash of its content. -/
structure Inv (config : DropsConfig) (sha256 : List UInt8 → Vector UInt8 32) (s : Inner) : Prop where
  books : Bookkept config sha256 s
  named : ∀ copy ∈ s.copies, ∃ session seq extension,
    copy.name = copyFileName session seq (hash8 (sha256 copy.content)) extension
  keys : (s.copies.map fun copy => hash8 (sha256 copy.content)).Nodup

theorem copiedContent_le {job : Job} {content : List UInt8} (h : copiedContent config s job = some content) :
    content.length ≤ config.maxSize.toNat := by
  unfold copiedContent at h
  split at h
  · cases h
  · cases hstat : job.stat with
    | none => simp [hstat] at h
    | some size =>
      simp only [hstat] at h
      split at h
      · cases h
      · split at h
        · exact copyCapped_le h
        · cases h

theorem Inv.boot : Inv config sha256 boot :=
  ⟨⟨UInt32.zero_le, rfl, by simp [Collector.boot], by simp [Collector.boot], List.nodup_nil, by simp [Collector.boot]⟩,
    by simp [Collector.boot], List.nodup_nil⟩

theorem Inv.same (h : Inv config sha256 s) {s' : Inner} (hsame : SameBooks s s') : Inv config sha256 s' := by
  obtain ⟨seenHashes, collected, nameSeq, copies, published⟩ := s'
  obtain ⟨rfl, rfl, rfl, rfl⟩ := hsame
  exact ⟨⟨h.books.limited, h.books.counted, h.books.hashes, h.books.capped, h.books.distinct, h.books.components⟩,
    h.named, h.keys⟩

theorem nodup_map_concat {α β : Type} {f : α → β} {items : List α} {item : α} (h : (items.map f).Nodup)
    (hnew : ∀ other ∈ items, f other ≠ f item) : ((items ++ [item]).map f).Nodup := by
  rw [List.map_append, List.nodup_append]
  refine ⟨h, List.nodup_singleton _, fun a ha b hb => ?_⟩
  obtain ⟨other, hother, rfl⟩ := List.mem_map.mp ha
  obtain rfl := List.mem_singleton.mp hb
  exact hnew other hother

theorem Inv.collects (h : Inv config sha256 s) {s' : Inner} {job : Job} {content : List UInt8}
    (hcollects : Collects config sha256 s job content s') : Inv config sha256 s' := by
  obtain ⟨seenHashes, collected, nameSeq, copies, published⟩ := s'
  obtain ⟨hlimit, hcopied, hnew, rfl, rfl, rfl⟩ := hcollects
  -- a hash nobody has seen is not that of an earlier copy
  have hfresh : ∀ copy ∈ s.copies, hash8 (sha256 copy.content) ≠ hash8 (sha256 content) := fun copy hcopy heq =>
    hnew ((h.books.hashes _).mpr ⟨copy, hcopy, heq⟩)
  have hcollected : (s.collected + 1).toNat = s.collected.toNat + 1 := by
    have hlt := UInt32.lt_iff_toNat_lt.mp hlimit
    have hmax := config.limitPerSession.toNat_lt
    rw [UInt32.toNat_add, UInt32.toNat_one, Nat.mod_eq_of_lt (by omega)]
  refine ⟨⟨?_, ?_, fun hash => ?_, ?_, ?_, ?_⟩, ?_, ?_⟩
  · rw [UInt32.le_iff_toNat_le, hcollected]
    exact UInt32.lt_iff_toNat_lt.mp hlimit
  · rw [hcollected, h.books.counted, List.length_append]
    rfl
  · simp only [List.mem_cons, h.books.hashes hash, List.mem_append, List.not_mem_nil, or_false, or_and_right,
      exists_or, exists_eq_left]
    rw [or_comm, @eq_comm _ hash]
  · rw [List.forall_mem_append]
    refine ⟨h.books.capped, fun copy hcopy => ?_⟩
    rw [List.mem_singleton.mp hcopy]
    exact copiedContent_le hcopied
  · refine nodup_map_concat h.books.distinct fun copy hcopy heq => hfresh copy hcopy ?_
    obtain ⟨session, seq, extension, hname⟩ := h.named copy hcopy
    exact copyFileName_hash (hname.symm.trans heq)
  · rw [List.forall_mem_append]
    refine ⟨h.books.components, fun copy hcopy => ?_⟩
    rw [List.mem_singleton.mp hcopy]
    exact isComponent_copyFileName _ _ _ _
  · rw [List.forall_mem_append]
    refine ⟨h.named, fun copy hcopy => ?_⟩
    rw [List.mem_singleton.mp hcopy]
    exact ⟨_, _, _, rfl⟩
  · exact nodup_map_concat h.keys hfresh

theorem Inv.run (config : DropsConfig) (sha256 : List UInt8 → Vector UInt8 32) (jobs : List Job) :
    Inv config sha256 (Runs.run (collectDrop config sha256) Collector.boot jobs) := by
  refine run_invariant (fun s job h => ?_) Inv.boot jobs
  obtain hsame | ⟨content, hcollects⟩ := @collectDrop_cases config sha256 s job
  · exact h.same hsame
  · exact h.collects hcollects

/-- Whatever the jobs meet, the books are right behind each, and a job that makes no copy books nothing. -/
theorem run_bookkept (config : DropsConfig) (sha256 : List UInt8 → Vector UInt8 32) (jobs : List Job) :
    let s := Runs.run (collectDrop config sha256) Collector.boot jobs
    Bookkept config sha256 s ∧ ∀ job, (collectDrop config sha256 s job).copies = s.copies →
      (collectDrop config sha256 s job).collected = s.collected ∧
        (collectDrop config sha256 s job).seenHashes = s.seenHashes := by
  refine ⟨(Inv.run config sha256 jobs).books, fun job hnone => ?_⟩
  obtain hsame | ⟨content, hcollects⟩ := @collectDrop_cases config sha256
    (Runs.run (collectDrop config sha256) Collector.boot jobs) job
  · exact ⟨hsame.collected, hsame.seenHashes⟩
  · have hlength := congrArg List.length (hcollects.copies.symm.trans hnone)
    simp at hlength

/-! ## Duplicates -/

theorem hexByte_inj {a b : UInt8} (h : hexByte a = hexByte b) : a = b := by
  have hinj : ∀ m < 16, ∀ n < 16, Nat.digitChar m = Nat.digitChar n → m = n := by decide
  obtain ⟨hhigh, hlow⟩ := List.cons.inj h
  have ha := a.toNat_lt
  have hb := b.toNat_lt
  have hhigh := hinj _ (by omega) _ (by omega) hhigh
  have hlow := hinj _ (by omega) _ (by omega) (List.cons.inj hlow).1
  exact UInt8.toNat_inj.mp (by omega)

theorem flatMap_hexByte_inj {bytes bytes' : List UInt8} (h : bytes.flatMap hexByte = bytes'.flatMap hexByte) :
    bytes = bytes' := by
  induction bytes generalizing bytes' with
  | nil =>
    cases bytes' with
    | nil => rfl
    | cons byte' rest' => cases h
  | cons byte rest ih =>
    cases bytes' with
    | nil => cases h
    | cons byte' rest' =>
      rw [List.flatMap_cons, List.flatMap_cons] at h
      obtain ⟨hbyte, hrest⟩ := List.append_inj h rfl
      rw [hexByte_inj hbyte, ih hrest]

theorem hash8_eq_iff {digest digest' : Vector UInt8 32} :
    hash8 digest = hash8 digest' ↔ digest.toList.take 4 = digest'.toList.take 4 := by
  rw [← String.toList_inj, hash8_toList, hash8_toList]
  exact ⟨flatMap_hexByte_inj, congrArg _⟩

/-- A job skips only what has been collected exactly if no other content has its hash. -/
theorem Inv.skipsKnown_iff (h : Inv config sha256 s) (job : Job) :
    SkipsKnown config sha256 s job ↔ NoCollision config sha256 s job := by
  have hseen (content : List UInt8) : s.isDuplicate sha256 content = true ↔
      ∃ copy ∈ s.copies, hash8 (sha256 copy.content) = hash8 (sha256 content) := by
    rw [Inner.isDuplicate, List.contains_iff_mem, h.books.hashes]
  constructor
  · intro hknown content hcontent copy hcopy heq
    have hhash := hash8_eq_iff.mpr heq
    obtain ⟨known, hin, hsame⟩ := hknown content hcontent ((hseen content).mpr ⟨copy, hcopy, hhash⟩)
    have hcopies : copy = known := List.inj_on_of_nodup_map h.keys hcopy hin (by rw [hhash, hsame])
    rw [hcopies, hsame]
  · intro hnone content hcontent hduplicate
    obtain ⟨copy, hcopy, hhash⟩ := (hseen content).mp hduplicate
    exact ⟨copy, hcopy, hnone content hcontent copy hcopy (hash8_eq_iff.mp hhash)⟩

/-- Over a boot: new evidence is never discarded exactly where no four digest bytes collide. -/
theorem run_skipsKnown_iff (config : DropsConfig) (sha256 : List UInt8 → Vector UInt8 32) (jobs : List Job) :
    Along (collectDrop config sha256) (SkipsKnown config sha256) Collector.boot jobs ↔
      Along (collectDrop config sha256) (NoCollision config sha256) Collector.boot jobs := by
  rw [along_iff_forall, along_iff_forall]
  exact forall₃_congr fun before job _ => imp_congr_right fun _ =>
    (Inv.run config sha256 before).skipsKnown_iff job

end

/-- SHA-256 of two contents whose digests begin alike. -/
def collidingSha256 (content : List UInt8) : Vector UInt8 32 :=
  if content = [0, 79, 88] then
    ⟨#[50, 116, 58, 235, 109, 103, 109, 231, 139, 51, 205, 15, 43, 250, 62, 209, 212, 80, 125, 24, 0, 13, 166, 166,
      69, 115, 39, 22, 200, 140, 113, 201], rfl⟩
  else
    ⟨#[50, 116, 58, 235, 161, 234, 15, 25, 56, 63, 17, 237, 250, 222, 34, 76, 0, 56, 98, 32, 154, 118, 114, 3, 229,
      215, 210, 44, 102, 127, 104, 7], rfl⟩

def readableJob (source : String) (content : List UInt8) : Job :=
  ⟨source, 1, some 3, true, true, true, [.chunk content true], true, true, some 3, true⟩

/-- The second of two different files is discarded: only its digest's first four bytes are known. -/
theorem collision_discarded :
    collidingSha256 [0, 79, 88] ≠ collidingSha256 [1, 112, 62] ∧
      ¬ Along (collectDrop ⟨10485760, 30, none⟩ collidingSha256) (SkipsKnown ⟨10485760, 30, none⟩ collidingSha256)
        Collector.boot [readableJob "a.js" [0, 79, 88], readableJob "b.js" [1, 112, 62]] := by
  refine ⟨by decide, ?_⟩
  rintro ⟨-, hskips, -⟩
  obtain ⟨copy, hcopy, hcontent⟩ := hskips [1, 112, 62] rfl (by decide +kernel)
  have hcontents : (collectDrop ⟨10485760, 30, none⟩ collidingSha256 Collector.boot
      (readableJob "a.js" [0, 79, 88])).copies.map (·.content) = [[0, 79, 88]] := by decide +kernel
  have hmem : [1, 112, 62] ∈ [[(0 : UInt8), 79, 88]] := by
    rw [← hcontents, ← hcontent]
    exact List.mem_map_of_mem hcopy
  exact absurd hmem (by decide)

end SecOutfall.Collector
