import LlingrKafka.Foundations.Truncation
import LlingrKafka.Wire.Verdict

/-!
# The reason of a dead letter

The text of a handler's error crosses the boundary twice: through the buffer of
`write_c_err` to the Go error, and from there to the dead-letter handler.  `Reason` is what
the handler is told; `deadletter_reason` says that it is, for every outcome of the process
handler, when the engine hands the error on as it is.
-/

namespace LlingrKafka.Wire

open Bridge FixedWidth Memory Utf8

/-- The reason of an outcome that is no Ok. -/
inductive Reason : Unwind (Except HandlerError (BitVec 64)) → String → Prop
  | whole {e : HandlerError} {text : String} (htext : e.text = .ret text) (hdrop : e.drop = .ret ())
      (hne : text ≠ "") (hfits : (encode text).length ≤ errBufCap) : Reason (.ret (.error e)) text
  | cut {e : HandlerError} {text reason : String} (htext : e.text = .ret text)
      (hdrop : e.drop = .ret ()) (hlong : errBufCap < (encode text).length)
      (hcut : LongestPrefix errBufCap text reason)
      (hlength : errBufCap - 3 ≤ (encode reason).length) : Reason (.ret (.error e)) reason
  | empty {e : HandlerError} (htext : e.text = .ret "") (hdrop : e.drop = .ret ()) :
      Reason (.ret (.error e)) "process callback returned error code: 1"
  | textPanics {e : HandlerError} {payload : PanicPayload} (htext : e.text = .panic payload) :
      Reason (.ret (.error e)) "panic in process callback"
  | dropPanics {e : HandlerError} {payload : PanicPayload} (hdrop : e.drop = .panic payload) :
      Reason (.ret (.error e)) "panic in process callback"
  | panics {payload : PanicPayload} : Reason (.panic payload) "panic in process callback"

/-! ## The buffer -/

/-- `write_c_err` writes the longest prefix that fits to the start of the buffer, and nothing
else. -/
theorem writeCErr_eq {buf : Bytes} {cap : ℕ} (hcap : 0 < cap) (hroom : cap ≤ buf.length) (len : ℤ)
    (text : String) :
    ∃ t, LongestPrefix cap text t ∧
      writeCErr ⟨some buf, cap, some len⟩ text =
        some ⟨some (encode t ++ buf.drop (encode t).length), cap, some (encode t).length⟩ := by
  obtain ⟨t, hprefix, htake, hlength⟩ := longestPrefix_floorBoundary cap text
  have hfits := hprefix.fits
  refine ⟨t, hprefix, ?_⟩
  unfold writeCErr
  simp only
  rw [if_neg (by omega), Int.toNat_natCast, if_pos (by omega), ← htake, ← hlength]

/-- The error variables of a call after some bytes have been written. -/
def writtenErrOut (bytes : Bytes) : ErrOut :=
  ⟨some (bytes ++ List.replicate (errBufCap - bytes.length) 0), errBufCap, some bytes.length⟩

theorem writeCErr_spec (text : String) :
    ∃ t, LongestPrefix errBufCap text t ∧
      writeCErr freshErrOut text = some (writtenErrOut (encode t)) := by
  have hroom : errBufCap ≤ (List.replicate errBufCap (0 : UInt8)).length := by
    rw [List.length_replicate]
  obtain ⟨t, hprefix, hwritten⟩ := writeCErr_eq (by decide) hroom 0 text
  refine ⟨t, hprefix, ?_⟩
  rw [List.drop_replicate] at hwritten
  exact hwritten

/-- What was written is the error. -/
theorem processError_written {t : String} (hfits : (encode t).length ≤ errBufCap) :
    processError 1 (writtenErrOut (encode t)) =
      some (encode (if t = "" then "process callback returned error code: 1" else t)) := by
  unfold processError writtenErrOut
  rw [if_neg (by decide)]
  simp only [Option.getD_some]
  split_ifs with hpos hempty hempty
  · subst hempty
    exact absurd hpos (by decide)
  · rw [Int.toNat_natCast, List.take_left]
  · rfl
  · have hnil : encode t = [] := List.length_eq_zero_iff.mp (by omega)
    refine absurd ?_ hempty
    rw [← decodeLossy_encode t, hnil]
    rfl

/-! ## The process handler -/

/-- A text that was handed over is the reason. -/
theorem reason_of_text {e : HandlerError} {text t : String} (htext : e.text = .ret text)
    (hdrop : e.drop = .ret ()) (h : LongestPrefix errBufCap text t) :
    Reason (.ret (.error e)) (if t = "" then "process callback returned error code: 1" else t) := by
  by_cases hlong : errBufCap < (encode text).length
  · have hlength := h.length_gt hlong
    have hne : t ≠ "" := by
      rintro rfl
      exact absurd hlength (by decide)
    rw [if_neg hne]
    exact .cut htext hdrop hlong h (by omega)
  · obtain rfl := h.eq_of_fits (by omega)
    split_ifs with hempty
    · exact .empty (hempty ▸ htext) hdrop
    · exact .whole htext hdrop hempty (by omega)

/-- `process_trampoline` leaves the reason in the buffer. -/
theorem processTrampoline_reason {handlers : Option HandlerSet} {m : Heap} {args : RecordArgs}
    {outcome : Unwind (Except HandlerError (BitVec 64))}
    (hcall : processCall handlers m args = some (processOutcome outcome))
    (hnot : ¬ ∃ traits, outcome = .ret (.ok traits)) :
    ∃ out reason, processTrampoline handlers m args ⟨some 0, freshErrOut⟩ = some (.ret (1, out)) ∧
      Reason outcome reason ∧ processError 1 out.err = some (encode reason) := by
  -- a panic anywhere in the closure leaves the fixed text
  have hpanic : ∀ payload, processOutcome outcome = .panic payload →
      ∃ out, processTrampoline handlers m args ⟨some 0, freshErrOut⟩ = some (.ret (1, out)) ∧
        processError 1 out.err = some (encode "panic in process callback") := by
    intro payload houtcome
    obtain ⟨t, hprefix, hwritten⟩ := writeCErr_spec "panic in process callback"
    obtain rfl := hprefix.eq_of_fits (by decide)
    rw [houtcome] at hcall
    exact ⟨⟨some 0, _⟩, processTrampoline_panic hcall hwritten, processError_written hprefix.fits⟩
  cases houtcome : outcome with
  | panic payload =>
      rw [houtcome] at hpanic
      obtain ⟨out, hrun, herr⟩ := hpanic payload rfl
      exact ⟨out, _, hrun, .panics, herr⟩
  | ret result =>
      cases hresult : result with
      | ok traits => exact absurd ⟨traits, by rw [houtcome, hresult]⟩ hnot
      | error e =>
          rw [houtcome, hresult] at hcall hpanic
          cases htext : e.text with
          | panic payload =>
              obtain ⟨out, hrun, herr⟩ := hpanic payload (by simp [processOutcome, htext])
              exact ⟨out, _, hrun, .textPanics htext, herr⟩
          | ret text =>
              cases hdrop : e.drop with
              | panic payload =>
                  obtain ⟨out, hrun, herr⟩ :=
                    hpanic payload (by simp [processOutcome, htext, hdrop])
                  exact ⟨out, _, hrun, .dropPanics hdrop, herr⟩
              | ret u =>
                  obtain ⟨t, hprefix, hwritten⟩ := writeCErr_spec text
                  have hreturned : processOutcome (.ret (.error e)) = .ret (1, 0, some text) := by
                    simp [processOutcome, htext, hdrop]
                  rw [hreturned] at hcall
                  exact ⟨⟨some 0, _⟩, _, processTrampoline_error hcall hwritten,
                    reason_of_text htext hdrop hprefix, processError_written hprefix.fits⟩

/-- A reason is short enough for its C int. -/
theorem Reason.length_lt {outcome : Unwind (Except HandlerError (BitVec 64))} {reason : String}
    (h : Reason outcome reason) : (encode reason).length < 2 ^ 31 := by
  cases h with
  | whole _ _ _ hfits =>
      rw [errBufCap] at hfits
      omega
  | cut _ _ _ hcut _ =>
      have hfits := hcut.fits
      rw [errBufCap] at hfits
      omega
  | empty | textPanics | dropPanics | panics => decide

/-- The reason arrives as it is. -/
theorem decodeLossy_arrived {reason : String} (h : (encode reason).length < 2 ^ 31) :
    decodeLossy (arrived ((some (encode reason)).getD [])) = reason := by
  rw [Option.getD_some, arrived_of_lt h, decodeLossy_encode]

section

variable {T : Type*} {callbacks : CallbackSet} {h : HandlerSet} {valueOf : T → Option Bytes}
  {metaOf : T → RecordMeta} {m : Heap} {msg : Envelope T}

/-- An error of `makeProcessMessage` is the reason of the handler's outcome. -/
theorem reason_of_makeProcessMessage {ret : ProcessReturn} (hregistered : callbacks.process = true)
    (hret : makeProcessMessage callbacks (some h) valueOf metaOf m msg = some ret)
    {err : Bytes} (herr : ret.err = some err) :
    ∃ message reason, Reason (h.process message) reason ∧ err = encode reason := by
  obtain ⟨m', args, message, rc, out, heap, hcall, hrun, rfl⟩ :=
    makeProcessMessage_ran hregistered hret
  obtain ⟨rc', out', hspec, hcases⟩ := processTrampoline_spec hcall
  rw [hrun, Option.some_inj, Unwind.ret.injEq, Prod.mk.injEq] at hspec
  obtain ⟨rfl, rfl⟩ := hspec
  have hnot : ¬ ∃ traits, h.process message = .ret (.ok traits) := by
    rcases hcases with ⟨_, _, rfl, _⟩ | ⟨hnot, -⟩
    · rw [processError_eq_none.mpr rfl] at herr
      cases herr
    · exact hnot
  obtain ⟨out'', reason, hleft, hreason, herr'⟩ := processTrampoline_reason hcall hnot
  rw [hrun, Option.some_inj, Unwind.ret.injEq, Prod.mk.injEq] at hleft
  obtain ⟨rfl, rfl⟩ := hleft
  exact ⟨message, reason, hreason, Option.some_inj.mp (herr.symm.trans herr')⟩

end

/-- The dead-letter handler is told the process handler's own text.  Every error that
`makeProcessMessage` returns is the reason of the outcome, and a handler that is given the
error is told the reason.  A message that fits the address space gets there, and no byte
outside the buffer is written on the way. -/
theorem deadletter_reason {T : Type*} (callbacks : CallbackSet)
    (hprocess : callbacks.process = true) (hdeadletter : callbacks.deadletter = true)
    (h : HandlerSet) (handle : Message → String → Unwind (Except HandlerError Unit))
    (hhandle : h.deadLetter = some handle) (valueOf : T → Option Bytes) (metaOf : T → RecordMeta)
    (msg : Envelope T) :
    (∀ m ret err, makeProcessMessage callbacks (some h) valueOf metaOf m msg = some ret →
      ret.err = some err →
      ∃ message reason, Reason (h.process message) reason ∧
        ∀ m' ret', makeWriteDeadLetter callbacks (some h) valueOf metaOf m' msg (some err) =
          some ret' → ∃ message', DeadletterVerdict (handle message' reason) ret'.2) ∧
    (Packable (metaOf msg.payload).headers →
      (¬ ∃ traits, h.process (arrivedMessage valueOf metaOf h.topic msg) = .ret (.ok traits)) →
      ∀ m, ∃ ret reason, makeProcessMessage callbacks (some h) valueOf metaOf m msg = some ret ∧
        Reason (h.process (arrivedMessage valueOf metaOf h.topic msg)) reason ∧
        ∀ m', ∃ ret', makeWriteDeadLetter callbacks (some h) valueOf metaOf m' msg ret.err =
          some ret' ∧
          DeadletterVerdict (handle (arrivedMessage valueOf metaOf h.topic msg) reason) ret'.2) ∧
    ∀ text, ∃ t, LongestPrefix errBufCap text t ∧
      writeCErr freshErrOut text = some (writtenErrOut (encode t)) := by
  refine ⟨?_, ?_, writeCErr_spec⟩
  · intro m ret err hret herr
    obtain ⟨message, reason, hreason, rfl⟩ := reason_of_makeProcessMessage hprocess hret herr
    refine ⟨message, reason, hreason, fun m' ret' hret' => ?_⟩
    have hverdict := makeWriteDeadLetter_returned hdeadletter hhandle hret'
    rwa [decodeLossy_arrived hreason.length_lt] at hverdict
  · intro hpackable hnot m
    obtain ⟨heap', args, heap, hcall, hreturns⟩ := makeProcessMessage_runs hprocess hpackable
    obtain ⟨out, reason, hrun, hreason, herr⟩ := processTrampoline_reason hcall hnot
    refine ⟨_, reason, hreturns 1 out hrun, hreason, fun m' => ?_⟩
    rw [herr]
    obtain ⟨ret', hret', hverdict⟩ := makeWriteDeadLetter_total hdeadletter hhandle hpackable
    rw [decodeLossy_arrived hreason.length_lt] at hverdict
    exact ⟨ret', hret', hverdict⟩

/-- A record with a null value. -/
def tombstone : Envelope Record where
  key := [107]
  partition := 1
  offset := 7
  payload := ⟨none, [], .ofUnixMilli 0, 0⟩
  partition_fits := by decide
  offset_fits := by decide

/-- A handler that fails with a NUL in its text, and one that only accepts this text. -/
def nulHandlers : HandlerSet where
  topic := "orders"
  process := fun _ => .ret (.error (.ofText "no\u0000stock"))
  deadLetter := some fun _ reason =>
    if reason = "no\u0000stock" then .ret (.ok ()) else .ret (.error (.ofText reason))

theorem deadletter_reason_nul :
    ∃ ret, makeProcessMessage ⟨true, true, false, false, false, false⟩ (some nulHandlers)
        Record.value franzMeta ⟨[]⟩ tombstone = some ret ∧
      ∃ ret', makeWriteDeadLetter ⟨true, true, false, false, false, false⟩ (some nulHandlers)
        Record.value franzMeta ⟨[]⟩ tombstone ret.err = some ret' ∧ ret'.2 = none := by
  have hpackable : Packable (franzMeta tombstone.payload).headers := ⟨by decide, by decide⟩
  obtain ⟨ret, reason, hret, hreason, hdeadletter⟩ :=
    (deadletter_reason ⟨true, true, false, false, false, false⟩ rfl rfl nulHandlers _ rfl
      Record.value franzMeta tombstone).2.1 hpackable (by rintro ⟨traits, h⟩; cases h) ⟨[]⟩
  obtain ⟨ret', hret', hverdict⟩ := hdeadletter ⟨[]⟩
  refine ⟨ret, hret, ret', hret', hverdict.mpr ?_⟩
  cases hreason with
  | whole htext =>
      obtain rfl := Unwind.ret.inj htext
      exact if_pos rfl
  | cut htext _ hlong =>
      obtain rfl := Unwind.ret.inj htext
      exact absurd hlong (by decide)
  | empty htext => exact absurd (Unwind.ret.inj htext) (by decide)
  | textPanics htext => cases htext
  | dropPanics hdrop => cases hdrop

end LlingrKafka.Wire
