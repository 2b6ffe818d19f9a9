import LlingrKafka.Abi.Contract
import LlingrKafka.Foundations.Checks
import LlingrKafka.Foundations.KeyLines

/-!
# The lock of the contract

`fnv1a_hex`, `version_after`, `parse_lock` and the end of `main` (`abi-check/build.rs`): the
build script reads the header, the two files with a version constant and `abi.lock`, and either
writes the lock or compares with it.  What stops the build is a `Stop`, with the text of its
panic.

The files are read as texts.  Where the header lies, a file that cannot be read, and what
bindgen says of the header come before, and end the script without a look at the lock.

A lock that was written is read back (`parseLock_lockBody`).  So with the versions where they
were, the build stops exactly if the signatures have different hashes, which takes a change that
the signature shows (`changes_seen_iff`).
-/

namespace LlingrKafka.Abi

open Utf8 KeyLines Checks

/-! ## The signature's hash -/

/-- `fnv1a_hex`. -/
def fnv1aHex (bytes : Bytes) : String :=
  let hash : UInt64 := bytes.foldl
    (fun hash b => (hash ^^^ UInt64.ofNat b.toNat) * 0x00000100000001b3) 0xcbf29ce484222325
  String.ofList ((Nat.toDigits 16 hash.toNat).leftpad 16 '0')

/-- Every header has a signature. -/
theorem isSome_abiSignature (src : Bytes) : (abiSignature src).isSome := by
  obtain ⟨out, hout⟩ := stripLoop_total src
  rw [abiSignature, stripComments, hout _ (Nat.lt_succ_self _)]
  rfl

/-- The `signature` of `main`. -/
def signatureHash (header : Bytes) : String :=
  fnv1aHex (encode (String.ofList ((abiSignature header).get (isSome_abiSignature header))))

/-- What `abi.lock` says. -/
structure Lock where
  version : ℕ
  signature : String

/-! ## The texts -/

/-- What stands behind the first occurrence of the marker (`str::find`). -/
def behind (marker : List Char) : List Char → Option (List Char)
  | [] => stripPrefix marker []
  | c :: cs => (stripPrefix marker (c :: cs)).or (behind marker cs)

/-- `u64::from_str`. -/
def parseU64 (cs : List Char) : Option ℕ :=
  let digits := (stripPrefix ['+'] cs).getD cs
  (Text.parseNat digits).filter (· < 2 ^ 64)

/-- The files by the names that the panics give them. -/
structure Paths where
  mainGo : String
  ffiRs : String
  lock : String

/-- What stops the build. -/
inductive Stop
  | noMarker (marker file : String)
  | noInteger (marker file : String)
  | overflow
  | disagree (goVersion rustVersion : ℕ)
  | missing (lock : String)
  | malformed (lock : String)
  | contractChanged (version : ℕ)
  | bothChanged (locked version : ℕ)
  | versionChanged (locked version : ℕ)
  deriving DecidableEq, Repr

/-- `regenerate`. -/
def regenerate : String := "UPDATE_ABI_LOCK=1 cargo build"

/-- The text of the panic. -/
def Stop.text : Stop → String
  | noMarker marker file =>
      "abi-check: could not find `" ++ marker ++ "` in " ++ file ++ ". The ABI version constant " ++
        "may have been renamed or moved; update abi-check/build.rs to match."
  | noInteger marker file =>
      "abi-check: found `" ++ marker ++ "` in " ++ file ++ " but no integer followed it."
  | overflow => "version digits parse as u64: ParseIntError \x7b kind: PosOverflow \x7d"
  | disagree goVersion rustVersion =>
      "abi-check: ABI version constants disagree: bridge/main.go declares " ++
        toString goVersion ++ " but ffi.rs declares " ++ toString rustVersion ++
        ". Set both to the same value."
  | missing lock => "abi-check: " ++ lock ++ " is missing. Generate it with: " ++ regenerate
  | malformed lock =>
      "abi-check: " ++ lock ++ " is malformed. Regenerate it with: " ++ regenerate
  | contractChanged version =>
      "abi-check: the FFI contract changed but the ABI version did not (still " ++
        toString version ++ "). Increment abiVersion (bridge/main.go) and LLINGR_ABI_VERSION " ++
        "(src/ffi.rs), then regenerate abi-check/abi.lock with: " ++ regenerate
  | bothChanged locked version =>
      "abi-check: the FFI contract changed and the ABI version moved (locked " ++
        toString locked ++ ", now " ++ toString version ++ "). If this is the intended " ++
        "coordinated change, regenerate the lock with: " ++ regenerate
  | versionChanged locked version =>
      "abi-check: the ABI version changed (locked " ++ toString locked ++ ", now " ++
        toString version ++ ") but the header signature is byte-identical. A version change " ++
        "with no contract change is suspicious. Either revert the version, or, if the ABI " ++
        "MEANING changed without a declaration change (e.g. a new sentinel value), regenerate " ++
        "the lock deliberately with: " ++ regenerate

/-- `version_after`. -/
def versionAfter (src marker file : String) : Except Stop ℕ :=
  match behind marker.toList src.toList with
  | none => .error (.noMarker marker file)
  | some rest =>
      let digits := (rest.dropWhile Text.isSpace).takeWhile Char.isDigit
      if digits = [] then .error (.noInteger marker file)
      else
        match parseU64 digits with
        | some version => .ok version
        | none => .error .overflow

/-- `parse_lock`: the last line of a key counts, and a version that is no number takes the one
before it back. -/
def parseLock (src : String) : Option Lock :=
  let fields := (lines src.toList).foldl
    (fun (version, signature) line =>
      match valueOf "version".toList (Text.trim line) with
      | some value => (value.bind parseU64, signature)
      | none =>
          match valueOf "signature".toList (Text.trim line) with
          | some value => (version, value.map String.ofList)
          | none => (version, signature))
    ((none, none) : Option ℕ × Option String)
  fields.1.bind fun version => fields.2.map fun signature => ⟨version, signature⟩

/-- `lock_body`. -/
def lockBody (lock : Lock) : String :=
  "version = " ++ toString lock.version ++ "\nsignature = " ++ lock.signature ++ "\n"

/-! ## The script -/

/-- What the build script reads. -/
structure Tree where
  header : String
  mainGo : String
  ffiRs : String
  lock : Option String
  deriving DecidableEq, Repr

def goVersion (paths : Paths) (tree : Tree) : Except Stop ℕ :=
  versionAfter tree.mainGo "const abiVersion =" paths.mainGo

def rustVersion (paths : Paths) (tree : Tree) : Except Stop ℕ :=
  versionAfter tree.ffiRs "LLINGR_ABI_VERSION: c_int =" paths.ffiRs

/-- What the header and the constants say now. -/
def declared (paths : Paths) (tree : Tree) : Except Stop Lock := do
  let go ← goVersion paths tree
  let rust ← rustVersion paths tree
  reject (go ≠ rust) (.disagree go rust)
  .ok ⟨go, signatureHash (encode tree.header)⟩

/-- `UPDATE_ABI_LOCK`: the variable is set, and not to an empty text. -/
def updates (updateAbiLock : Option String) : Bool := updateAbiLock.any (· ≠ "")

/-- The comparison with the lock. -/
def checkLock (lock now : Lock) : Except Stop Unit :=
  match lock.signature == now.signature, lock.version == now.version with
  | true, true => .ok ()
  | false, true => .error (.contractChanged now.version)
  | false, false => .error (.bothChanged lock.version now.version)
  | true, false => .error (.versionChanged lock.version now.version)

/-- The lock as it is found. -/
def readLock (paths : Paths) (locked : Option String) : Except Stop Lock :=
  match locked with
  | none => .error (.missing paths.lock)
  | some text =>
      match parseLock text with
      | none => .error (.malformed paths.lock)
      | some lock => .ok lock

/-- `main`, from the look at the constants on: the tree it leaves. -/
def buildScript (paths : Paths) (updateAbiLock : Option String) (tree : Tree) :
    Except Stop Tree := do
  let now ← declared paths tree
  if updates updateAbiLock then .ok { tree with lock := some (lockBody now) }
  else
    let lock ← readLock paths tree.lock
    checkLock lock now
    .ok tree

/-! ## Reading the lock back -/

theorem not_isSpace_of_isDigit {c : Char} (h : c.isDigit = true) : Text.isSpace c = false := by
  rw [Char.isDigit, Bool.and_eq_true, decide_eq_true_iff, decide_eq_true_iff] at h
  have hlow : 48 ≤ c.toNat := h.1
  have hhigh : c.toNat ≤ 57 := h.2
  have hblank : c ≠ ' ' := by
    rintro rfl
    exact absurd hlow (by decide)
  simp [Text.isSpace, hblank]
  omega

/-- A number is read back from its numeral. -/
theorem parseU64_toDigits {n : ℕ} (hn : n < 2 ^ 64) : parseU64 (Nat.toDigits 10 n) = some n := by
  have hsign : stripPrefix ['+'] (Nat.toDigits 10 n) = none := by
    rw [stripPrefix, if_neg]
    intro hprefix
    have hplus : '+' ∈ Nat.toDigits 10 n := hprefix.subset (List.mem_singleton_self '+')
    exact absurd (Nat.isDigit_of_mem_toDigits (by decide) (by decide) hplus) (by decide)
  rw [parseU64, hsign, Option.getD_none, Text.parseNat_toDigits, Option.filter_some,
    if_pos (decide_eq_true hn)]

/-- The version of a file is a 64-bit number. -/
theorem versionAfter_lt {src marker file : String} {version : ℕ}
    (h : versionAfter src marker file = .ok version) : version < 2 ^ 64 := by
  unfold versionAfter at h
  split at h
  · cases h
  simp only at h
  split_ifs at h
  split at h
  · rename_i n hparse
    obtain rfl := Except.ok.inj h
    simpa using (Option.filter_eq_some_iff.mp hparse).2
  · cases h

/-- The digits of a number in base sixteen are no white space. -/
theorem not_isSpace_of_mem_hexDigits (n : ℕ) :
    ∀ c ∈ Nat.toDigits 16 n, Text.isSpace c = false := by
  have hdigit : ∀ d < 16, Text.isSpace (Nat.digitChar d) = false := by decide
  induction n using Nat.strong_induction_on with
  | _ n ih =>
      rw [Nat.toDigits_eq_if (by decide)]
      split_ifs with hlt
      · intro c hc
        rw [List.mem_singleton.mp hc]
        exact hdigit n hlt
      · intro c hc
        rcases List.mem_append.mp hc with hc | hc
        · exact ih (n / 16) (Nat.div_lt_self (by omega) (by decide)) c hc
        · rw [List.mem_singleton.mp hc]
          exact hdigit _ (Nat.mod_lt n (by decide))

/-- A hash is a word. -/
theorem fnv1aHex_word (bytes : Bytes) :
    (fnv1aHex bytes).toList ≠ [] ∧ ∀ c ∈ (fnv1aHex bytes).toList, Text.isSpace c = false := by
  unfold fnv1aHex
  simp only [String.toList_ofList, List.leftpad]
  constructor
  · simp [Nat.toDigits_ne_nil]
  · intro c hc
    rcases List.mem_append.mp hc with hc | hc
    · rw [List.eq_of_mem_replicate hc]
      rfl
    · exact not_isSpace_of_mem_hexDigits _ c hc

/-- What is written is read back. -/
theorem parseLock_lockBody {lock : Lock} (hversion : lock.version < 2 ^ 64)
    (hne : lock.signature.toList ≠ [])
    (hsignature : ∀ c ∈ lock.signature.toList, Text.isSpace c = false) :
    parseLock (lockBody lock) = some lock := by
  have hdigits : ∀ c ∈ Nat.toDigits 10 lock.version, Text.isSpace c = false := fun c hc =>
    not_isSpace_of_isDigit (Nat.isDigit_of_mem_toDigits (by decide) (by decide) hc)
  have hbody : (lockBody lock).toList =
      entry "version".toList (Nat.toDigits 10 lock.version) ++ '\n' ::
        (entry "signature".toList lock.signature.toList ++ ['\n']) := by
    simp [lockBody, entry]
  have hv : Text.trim (entry "version".toList (Nat.toDigits 10 lock.version)) =
      entry "version".toList (Nat.toDigits 10 lock.version) :=
    trim_entry rfl Nat.toDigits_ne_nil hdigits
  have hs : Text.trim (entry "signature".toList lock.signature.toList) =
      entry "signature".toList lock.signature.toList := trim_entry rfl hne hsignature
  have hother : valueOf "version".toList (entry "signature".toList lock.signature.toList) = none :=
    valueOf_eq_none (by decide) _ _
  rw [parseLock, hbody, lines_entry (by decide) Nat.toDigits_ne_nil hdigits,
    lines_entry (by decide) hne hsignature, lines_nil]
  simp only [List.foldl_cons, List.foldl_nil, hv, hs, valueOf_entry hdigits, hother,
    valueOf_entry hsignature, Option.bind_some, parseU64_toDigits hversion, Option.map_some,
    String.ofList_toList]

/-! ## What a build says -/

/-- The constants have the values they had. -/
def SameVersions (paths : Paths) (tree tree' : Tree) : Prop :=
  goVersion paths tree' = goVersion paths tree ∧ rustVersion paths tree' = rustVersion paths tree

section

variable {paths : Paths} {tree tree' : Tree}

theorem declared_eq_ok {now : Lock} (h : declared paths tree = .ok now) :
    goVersion paths tree = .ok now.version ∧ rustVersion paths tree = .ok now.version ∧
      now.signature = signatureHash (encode tree.header) := by
  obtain ⟨go, hgo, hrest⟩ := bind_eq_ok.mp h
  obtain ⟨rust, hrust, hrest⟩ := bind_eq_ok.mp hrest
  obtain ⟨_, hagree, hnow⟩ := bind_eq_ok.mp hrest
  obtain rfl := not_not.mp (reject_eq_ok.mp hagree)
  obtain rfl := Except.ok.inj hnow
  exact ⟨hgo, hrust, rfl⟩

/-- With the same constants only the signature can be another one. -/
theorem declared_of_sameVersions (hsame : SameVersions paths tree tree') {now : Lock}
    (h : declared paths tree = .ok now) :
    declared paths tree' = .ok ⟨now.version, signatureHash (encode tree'.header)⟩ := by
  obtain ⟨hgo, hrust, -⟩ := declared_eq_ok h
  rw [declared, hsame.1, hgo, hsame.2, hrust]
  show (reject (now.version ≠ now.version) _ >>= _) = _
  rw [reject, if_neg (not_not.mpr rfl)]
  rfl

/-- A build that writes the lock. -/
theorem buildScript_updates {update : Option String} {locked : Tree} (hupdates : updates update)
    (h : buildScript paths update tree = .ok locked) :
    ∃ now, declared paths tree = .ok now ∧ locked.lock = some (lockBody now) := by
  obtain ⟨now, hdeclared, h⟩ := bind_eq_ok.mp h
  rw [if_pos hupdates] at h
  obtain rfl := Except.ok.inj h
  exact ⟨now, hdeclared, rfl⟩

/-- A build that compares with a lock of its own version. -/
theorem buildScript_compares {plain : Option String} {now lock : Lock}
    (hplain : updates plain = false) (hdeclared : declared paths tree = .ok now)
    (hlock : readLock paths tree.lock = .ok lock) (hversion : lock.version = now.version) :
    buildScript paths plain tree =
      if lock.signature = now.signature then .ok tree
      else .error (.contractChanged now.version) := by
  have hnot : ¬ updates plain = true := by simp [hplain]
  rw [buildScript, hdeclared]
  show (if updates plain = true then _ else _) = _
  rw [if_neg hnot, hlock]
  show (checkLock lock now >>= fun _ => .ok tree) = _
  rw [checkLock, hversion, beq_self_eq_true]
  by_cases hsignature : lock.signature = now.signature
  · rw [if_pos hsignature, beq_iff_eq.mpr hsignature]
    rfl
  · rw [if_neg hsignature, beq_eq_false_iff_ne.mpr hsignature]
    rfl

/-- With the constants where they were, a build against a lock that was written stops exactly
if the hashes differ. -/
theorem buildScript_against {update plain : Option String} {locked : Tree}
    (hupdates : updates update) (hlocked : buildScript paths update tree = .ok locked)
    (hlock : tree'.lock = locked.lock) (hsame : SameVersions paths tree tree')
    (hplain : updates plain = false) :
    ∃ version, goVersion paths tree = .ok version ∧ buildScript paths plain tree' =
      if signatureHash (encode tree.header) = signatureHash (encode tree'.header) then .ok tree'
      else .error (.contractChanged version) := by
  obtain ⟨now, hdeclared, hbody⟩ := buildScript_updates hupdates hlocked
  obtain ⟨hgo, -, hsignature⟩ := declared_eq_ok hdeclared
  obtain ⟨hne, hword⟩ := fnv1aHex_word
    (encode (String.ofList ((abiSignature (encode tree.header)).get (isSome_abiSignature _))))
  have hread : readLock paths tree'.lock = .ok now := by
    rw [hlock, hbody, readLock,
      parseLock_lockBody (versionAfter_lt hgo) (hsignature ▸ hne) (hsignature ▸ hword)]
  refine ⟨now.version, hgo, ?_⟩
  rw [buildScript_compares hplain (declared_of_sameVersions hsame hdeclared) hread rfl, hsignature]

/-- Without a change that shows the hashes are the same. -/
theorem signatureHash_congr {src src' : Bytes} (h : abiSignature src = abiSignature src') :
    signatureHash src = signatureHash src' := by
  unfold signatureHash
  congr 4

end

/-- The signature is another one exactly if a parameter or a member that mentions `llingr_` is.
A build against the lock of the first header, with the constants where they were, stops exactly
if there is such a change and the hashes of the signatures differ; else it passes. -/
theorem changes_seen_iff {src src' : Bytes} {H H' : List Decl} (h : Reads src H)
    (h' : Reads src' H') (houtline : List.Forall₂ SameOutline H H') :
    (abiSignature src ≠ abiSignature src' ↔ ∃ d ∈ H.zip H', ChangeShows d.1 d.2) ∧
    ∀ (paths : Paths) (update plain : Option String) (tree locked tree' : Tree),
      encode tree.header = src → encode tree'.header = src' → updates update →
      buildScript paths update tree = .ok locked → tree'.lock = locked.lock →
      SameVersions paths tree tree' → updates plain = false →
      ((∃ version, buildScript paths plain tree' = .error (.contractChanged version)) ↔
        (∃ d ∈ H.zip H', ChangeShows d.1 d.2) ∧ signatureHash src ≠ signatureHash src') ∧
      (buildScript paths plain tree' = .ok tree' ↔
        ¬ ((∃ d ∈ H.zip H', ChangeShows d.1 d.2) ∧ signatureHash src ≠ signatureHash src')) := by
  have hiff : abiSignature src ≠ abiSignature src' ↔ ∃ d ∈ H.zip H', ChangeShows d.1 d.2 := by
    rw [ne_eq, abiSignature_eq_iff h h' houtline]
    simp only [not_forall, not_not, exists_prop]
  refine ⟨hiff, ?_⟩
  rintro paths update plain tree locked tree' rfl rfl hupdates hlocked hlock hsame hplain
  obtain ⟨version, -, hbuild⟩ := buildScript_against hupdates hlocked hlock hsame hplain
  rw [hbuild, ← hiff]
  -- different hashes come of different signatures
  by_cases hhash : signatureHash (encode tree.header) = signatureHash (encode tree'.header)
  · rw [if_pos hhash]
    simp [hhash]
  · have hne : abiSignature (encode tree.header) ≠ abiSignature (encode tree'.header) :=
      fun heq => hhash (signatureHash_congr heq)
    rw [if_neg hhash]
    simp [hhash, hne]

/-- The files as they lie in the repository, with one declaration of each kind. -/
def abiPaths : Paths := ⟨"bridge/main.go", "src/ffi.rs", "abi-check/abi.lock"⟩

def preambleTree : Tree where
  header := preamble
  mainGo := "const abiVersion = 1\n"
  ffiRs := "pub const LLINGR_ABI_VERSION: c_int = 1;\n"
  lock := none

/-- The lock is written, and two parameters of one type change places. -/
def reorderedTree : Tree :=
  { preambleTree with
    header := reordered
    lock := some (lockBody ⟨1, signatureHash (encode preamble)⟩) }

theorem changes_seen_iff_reordered :
    abiSignature (encode preamble) ≠ abiSignature (encode reordered) ∧
      ∃ version, buildScript abiPaths none reorderedTree = .error (.contractChanged version) := by
  have hshows : ∃ d ∈ (declsOf "int value_len" ["int level", "const char* msg", "int msg_len"]).zip
      (declsOf "int value_len" ["int msg_len", "const char* msg", "int level"]),
      ChangeShows d.1 d.2 := ⟨_, List.mem_cons_of_mem _ List.mem_cons_self, by decide +kernel⟩
  have hhash : signatureHash (encode preamble) ≠ signatureHash (encode reordered) := by
    decide +kernel
  obtain ⟨hseen, hreported⟩ :=
    changes_seen_iff reads_preamble reads_reordered (sameOutline_declsOf _ _ _ _)
  refine ⟨hseen.mpr hshows, (hreported abiPaths (some "1") none preambleTree
    { preambleTree with lock := reorderedTree.lock } reorderedTree rfl rfl rfl rfl rfl ⟨rfl, rfl⟩
    rfl).1.mpr ⟨hshows, hhash⟩⟩

end LlingrKafka.Abi
