import LlingrKafka.Foundations.Truncation
import LlingrKafka.Wire.Trampolines

/-!
# The text of a failed `llingr_init`

`write_c_err` carries an error's text from Rust to Go and `writeInitErr` from Go to Rust, each
with its own way back to a character boundary.  The two cut a text at the same byte, which is
the end of its longest prefix that fits (`truncations_agree`), and `init_failure_text` returns
that prefix.

`truncateToRuneBoundary` is `none` where indexing the message would panic, and
`initFailureText` where slicing the buffer would.
-/

namespace LlingrKafka.Wire

open Utf8

/-- `utf8.RuneStart`. -/
def runeStart (b : UInt8) : Bool := b &&& 0xC0 != 0x80

/-- The loop of `truncateToRuneBoundary`. -/
def backToRuneStart (msg : Bytes) : ℕ → Option ℕ
  | 0 => some 0
  | n + 1 =>
      match msg[n + 1]? with
      | some b => if runeStart b then some (n + 1) else backToRuneStart msg n
      | none => none

/-- `truncateToRuneBoundary`. -/
def truncateToRuneBoundary (msg : Bytes) (limit : ℕ) : Option ℕ :=
  if limit < msg.length then backToRuneStart msg limit else some msg.length

/-- `writeInitErr`. -/
def writeInitErr (out : ErrOut) (msg : Bytes) : Option ErrOut :=
  match out.buf, out.len with
  | some buf, some _ =>
      if out.cap ≤ 0 then some out
      else
        (truncateToRuneBoundary msg out.cap.toNat).bind fun n =>
          if n ≤ buf.length then
            some { out with buf := some (msg.take n ++ buf.drop n), len := some n }
          else none
  | _, _ => some out

/-- `INIT_ERR_CAP`. -/
def initErrCap : ℕ := 1024

/-- The error variables `build` hands to `llingr_init`, which clears the count, after the text
of the failure is written to them if there is one. -/
def initErrOut (msg : Option Bytes) : Option ErrOut :=
  let fresh : ErrOut := ⟨some (List.replicate initErrCap 0), initErrCap, some 0⟩
  match msg with
  | some msg => writeInitErr fresh msg
  | none => some fresh

/-- `init_failure_text`. -/
def initFailureText (rc : ℤ) (errBuf : Bytes) (errLen : ℤ) : Option String :=
  if 0 < errLen then
    if errLen.toNat ≤ errBuf.length then some (decodeLossy (errBuf.take errLen.toNat)) else none
  else
    some (
      if rc = -1 then "already initialised"
      else if rc = -2 then "invalid configuration JSON"
      else if rc = -3 then "missing required config (brokers, topic, or consumer_group)"
      else if rc = -4 then "failed to create adapter or connect to broker"
      else if rc = -5 then "invalid adapter or engine option"
      else "unknown initialisation error")

/-- What `build` makes of the error variables. -/
def buildFailureText (rc : ℤ) (msg : Option Bytes) : Option String :=
  (initErrOut msg).bind fun out => initFailureText rc (out.buf.getD []) (out.len.getD 0)

/-! ## The two ways back -/

theorem runeStart_eq (b : UInt8) : runeStart b = !isContinuation b := by
  have hall : ∀ n : Fin 256, runeStart (UInt8.ofNat n) = !isContinuation (UInt8.ofNat n) := by
    decide +kernel
  have h := hall ⟨b.toNat, b.toNat_lt⟩
  rwa [UInt8.ofNat_toNat] at h

/-- Within the message the loop stops at the last boundary. -/
theorem backToRuneStart_eq {msg : Bytes} {n : ℕ} (h : n < msg.length) :
    backToRuneStart msg n = some (floorBoundary msg n) := by
  induction n with
  | zero => rfl
  | succ n ih =>
      have hbyte := List.getElem?_eq_getElem h
      unfold backToRuneStart floorBoundary isCharBoundary
      rw [hbyte, ih (by omega)]
      simp only [runeStart_eq]
      split_ifs <;> rfl

/-- A whole message ends at a boundary. -/
theorem floorBoundary_length (msg : Bytes) : floorBoundary msg msg.length = msg.length := by
  cases hlength : msg.length with
  | zero => rfl
  | succ n =>
      have hend : isCharBoundary msg (n + 1) = true := by
        rw [← hlength, isCharBoundary, List.getElem?_length]
        exact beq_self_eq_true _
      rw [floorBoundary, if_pos hend]

/-- Both sides cut at the last boundary that fits, whatever the bytes. -/
theorem truncateToRuneBoundary_eq (msg : Bytes) (limit : ℕ) :
    truncateToRuneBoundary msg limit = some (floorBoundary msg (min msg.length limit)) := by
  unfold truncateToRuneBoundary
  split_ifs with hlong
  · rw [backToRuneStart_eq hlong, Nat.min_eq_right hlong.le]
  · rw [Nat.min_eq_left (Nat.le_of_not_lt hlong), floorBoundary_length]

/-- The two writers leave the same buffer and the same count. -/
theorem writeInitErr_eq (out : ErrOut) (text : String) :
    writeInitErr out (encode text) = writeCErr out text := by
  obtain ⟨buf, cap, len⟩ := out
  cases buf with
  | none => rfl
  | some buf =>
      cases len with
      | none => rfl
      | some len => simp only [writeInitErr, writeCErr, truncateToRuneBoundary_eq, Option.bind_some]

/-! ## The text that arrives -/

/-- The buffer of `build` has room for all that is written, and what is written is read. -/
theorem buildFailureText_eq (rc : ℤ) (msg : Bytes) :
    buildFailureText rc (some msg) =
      if 0 < floorBoundary msg (min msg.length initErrCap) then
        some (decodeLossy (msg.take (floorBoundary msg (min msg.length initErrCap))))
      else buildFailureText rc none := by
  have hfits : floorBoundary msg (min msg.length initErrCap) ≤ initErrCap :=
    (floorBoundary_le msg _).trans (Nat.min_le_right _ _)
  have hwhole : floorBoundary msg (min msg.length initErrCap) ≤ msg.length :=
    (floorBoundary_le msg _).trans (Nat.min_le_left _ _)
  have hcap : ¬ (initErrCap : ℤ) ≤ 0 := by decide
  have hbuf : (List.replicate initErrCap (0 : UInt8)).length = initErrCap := List.length_replicate
  have hwritten : initErrOut (some msg) = some
      ⟨some (msg.take (floorBoundary msg (min msg.length initErrCap)) ++
        (List.replicate initErrCap 0).drop (floorBoundary msg (min msg.length initErrCap))),
        initErrCap, some (floorBoundary msg (min msg.length initErrCap) : ℤ)⟩ := by
    simp only [initErrOut, writeInitErr, truncateToRuneBoundary_eq, Option.bind_some,
      Int.toNat_natCast]
    rw [if_neg hcap, if_pos (hfits.trans_eq hbuf.symm)]
  rw [buildFailureText, hwritten, Option.bind_some, initFailureText]
  simp only [Option.getD_some, Int.toNat_natCast]
  by_cases hpos : 0 < floorBoundary msg (min msg.length initErrCap)
  · rw [if_pos (by omega), if_pos hpos, if_pos]
    · rw [List.take_left' (by rw [List.length_take]; omega)]
    · rw [List.length_append, List.length_take, List.length_drop, hbuf]
      omega
  · rw [if_neg (by omega), if_neg hpos]
    rfl

/-- Cutting a text at `cap` bytes: `n` bytes that fit, are a text and cannot be more. -/
structure MaximalCut (cap : ℕ) (text : String) (n : ℕ) : Prop where
  fits : n ≤ cap
  valid : ∃ t, decode ((encode text).take n) = some t ∧ (encode t).length = n
  maximal : ∀ k ≤ cap, n < k → k ≤ (encode text).length → decode ((encode text).take k) = none
  close : cap < (encode text).length → cap < n + 4

theorem maximalCut_floorBoundary (cap : ℕ) (text : String) :
    MaximalCut cap text (floorBoundary (encode text) (min (encode text).length cap)) := by
  obtain ⟨t, hlongest, htake, hlength⟩ := longestPrefix_floorBoundary cap text
  rw [← hlength] at htake ⊢
  exact {
    fits := hlongest.fits
    valid := ⟨t, by rw [← htake, decode_encode], rfl⟩
    maximal := fun _ hfits hlong hk => hlongest.decode_take hfits hlong hk
    close := hlongest.length_gt }

/-- The bytes that are cut off a text are read as they are. -/
theorem buildFailureText_encode (rc : ℤ) {text t : String}
    (htext : decode ((encode text).take (floorBoundary (encode text)
      (min (encode text).length initErrCap))) = some t) (hne : t ≠ "") :
    buildFailureText rc (some (encode text)) = some t := by
  have hencode := encode_of_decode htext
  have hpos : 0 < floorBoundary (encode text) (min (encode text).length initErrCap) := by
    by_contra hzero
    rw [Nat.eq_zero_of_not_pos hzero, List.take_zero] at hencode
    exact hne (by rw [← decodeLossy_encode t, hencode]; rfl)
  rw [buildFailureText_eq, if_pos hpos, ← hencode, decodeLossy_encode]

/-- Of a message there is always something to read: its longest prefix that fits. -/
theorem buildFailureText_message (rc : ℤ) {msg : String} (hne : msg ≠ "") :
    ∃ text, LongestPrefix initErrCap msg text ∧ text ≠ "" ∧
      buildFailureText rc (some (encode msg)) = some text := by
  obtain ⟨text, hlongest, htake, -⟩ := longestPrefix_floorBoundary initErrCap msg
  have htext : text ≠ "" := by
    rintro rfl
    by_cases hfits : (encode msg).length ≤ initErrCap
    · exact hne (hlongest.eq_of_fits hfits).symm
    · exact absurd (hlongest.length_gt (not_le.mp hfits)) (by decide)
  exact ⟨text, hlongest, htext,
    buildFailureText_encode rc (by rw [← htake, decode_encode]) htext⟩

/-- The two truncations agree and are maximal.  Both report the same count and write just the
bytes before it; the text of a failed `llingr_init` is read within its buffer, whatever the
bytes of the message, and is the prefix that was written. -/
theorem truncations_agree :
    (∀ (text : String) (cap : ℕ) (buf : Bytes) (len : ℤ), 0 < cap → cap ≤ buf.length →
      ∃ n, MaximalCut cap text n ∧ truncateToRuneBoundary (encode text) cap = some n ∧
        writeCErr ⟨some buf, cap, some len⟩ text =
          some ⟨some ((encode text).take n ++ buf.drop n), cap, some n⟩ ∧
        writeInitErr ⟨some buf, cap, some len⟩ (encode text) =
          some ⟨some ((encode text).take n ++ buf.drop n), cap, some n⟩) ∧
    (∀ (rc : ℤ) (msg : Option Bytes), (buildFailureText rc msg).isSome) ∧
    ∀ (rc : ℤ) (text : String), ∃ n, MaximalCut initErrCap text n ∧
      truncateToRuneBoundary (encode text) initErrCap = some n ∧
      ∀ t, decode ((encode text).take n) = some t → t ≠ "" →
        buildFailureText rc (some (encode text)) = some t := by
  refine ⟨?_, ?_, ?_⟩
  · intro text cap buf len hcap hroom
    have hcut := maximalCut_floorBoundary cap text
    have hwritten : writeCErr ⟨some buf, cap, some len⟩ text =
        some ⟨some ((encode text).take (floorBoundary (encode text) (min (encode text).length cap))
          ++ buf.drop (floorBoundary (encode text) (min (encode text).length cap))), cap,
          some (floorBoundary (encode text) (min (encode text).length cap) : ℤ)⟩ := by
      simp only [writeCErr, Int.toNat_natCast]
      rw [if_neg (by omega), if_pos (hcut.fits.trans hroom)]
    exact ⟨_, hcut, truncateToRuneBoundary_eq _ _, hwritten, (writeInitErr_eq _ _).trans hwritten⟩
  · intro rc msg
    have hnone : (buildFailureText rc none).isSome := rfl
    cases msg with
    | none => exact hnone
    | some msg =>
        rw [buildFailureText_eq]
        split_ifs
        · rfl
        · exact hnone
  · intro rc text
    exact ⟨_, maximalCut_floorBoundary initErrCap text, truncateToRuneBoundary_eq _ _,
      fun t htext hne => buildFailureText_encode rc htext hne⟩

theorem truncations_agree_split :
    ∃ n, MaximalCut 2 "aébc" n ∧ truncateToRuneBoundary (encode "aébc") 2 = some n ∧
      writeCErr ⟨some [0, 0, 0], 2, some 0⟩ "aébc" =
        some ⟨some ((encode "aébc").take n ++ [0, 0, 0].drop n), 2, some n⟩ ∧
      writeInitErr ⟨some [0, 0, 0], 2, some 0⟩ (encode "aébc") =
        some ⟨some ((encode "aébc").take n ++ [0, 0, 0].drop n), 2, some n⟩ :=
  truncations_agree.1 "aébc" 2 [0, 0, 0] 0 (by decide) (by decide)

end LlingrKafka.Wire
