import LlingrKafka.Wire.Arrival
import LlingrKafka.Wire.Process

/-!
# What a call of a handler returns

Each of the two calls, from the Go closure through the trampoline to the handler and
back, says nil exactly when the handler said Ok (`ProcessVerdict`, `DeadletterVerdict`).
That holds whenever the call returns at all, and it returns for every message that fits
the address space: no unwind leaves a trampoline, whatever the handler or the destructor
of its panic payload does.
-/

namespace LlingrKafka.Wire

open Bridge FixedWidth Memory Utf8

/-- A call of the process handler that came to `outcome` returns nil exactly on Ok, and
applies the traits of an Ok and nothing else. -/
structure ProcessVerdict (outcome : Unwind (Except HandlerError (BitVec 64)))
    (ret : ProcessReturn) : Prop where
  nil : ret.err = none ↔ ∃ traits, outcome = .ret (.ok traits)
  applied : ∀ traits, outcome = .ret (.ok traits) → ret.traits.getD 0 = traits
  nothing : (¬ ∃ traits, outcome = .ret (.ok traits)) → ret.traits = none

/-- A call of the dead-letter handler that came to `outcome` returns nil exactly on Ok. -/
def DeadletterVerdict (outcome : Unwind (Except HandlerError Unit)) (err : Option Bytes) : Prop :=
  err = none ↔ outcome = .ret (.ok ())

/-! ## The trampolines -/

/-- No payload's destructor gets past the inner catch. -/
theorem dropPanicPayload_eq (payload : PanicPayload) : dropPanicPayload payload = .ret () := by
  cases payload with
  | plain => rfl
  | dropPanics nested => rfl

/-- A buffer as large as its capacity takes every text, cut to the capacity. -/
theorem writeCErr_total {out : ErrOut} (h : ∀ buf ∈ out.buf, out.cap.toNat ≤ buf.length)
    (s : String) : ∃ err, writeCErr out s = some err := by
  unfold writeCErr
  split
  · rename_i buf _ hbuf _
    split
    · exact ⟨_, rfl⟩
    · have hcap := h buf hbuf
      have hle := floorBoundary_le (encode s) (min (encode s).length out.cap.toNat)
      have hfits : floorBoundary (encode s) (min (encode s).length out.cap.toNat) ≤ buf.length := by
        omega
      simp only [if_pos hfits]
      exact ⟨_, rfl⟩
  · exact ⟨_, rfl⟩

theorem writeCErr_fresh (s : String) : ∃ err, writeCErr freshErrOut s = some err := by
  apply writeCErr_total
  intro buf hbuf
  obtain rfl := Option.some_inj.mp hbuf
  rw [List.length_replicate]
  exact Nat.le_refl _

section

variable {handlers : Option HandlerSet} {m : Heap} {args : RecordArgs} {err : ErrOut}

/-- A closure that returns an error's text leaves it in the buffer. -/
theorem processTrampoline_error {text : String}
    (hcall : processCall handlers m args = some (.ret (1, 0, some text)))
    (herr : writeCErr freshErrOut text = some err) :
    processTrampoline handlers m args ⟨some 0, freshErrOut⟩ = some (.ret (1, ⟨some 0, err⟩)) := by
  rw [processTrampoline, hcall]
  exact congrArg (Option.map _) herr

/-- A closure that panics, wherever it does, leaves the fixed text. -/
theorem processTrampoline_panic {payload : PanicPayload}
    (hcall : processCall handlers m args = some (.panic payload))
    (herr : writeCErr freshErrOut "panic in process callback" = some err) :
    processTrampoline handlers m args ⟨some 0, freshErrOut⟩ = some (.ret (1, ⟨some 0, err⟩)) := by
  rw [processTrampoline, hcall, Option.bind_some]
  simp only [Unwind.catchUnwind_panic, dropPanicPayload_eq]
  exact congrArg (Option.map _) herr

/-- `process_trampoline` returns 0 and the traits on Ok, and something else and no traits
on every other outcome. -/
theorem processTrampoline_spec {outcome : Unwind (Except HandlerError (BitVec 64))}
    (hcall : processCall handlers m args = some (processOutcome outcome)) :
    ∃ rc out, processTrampoline handlers m args ⟨some 0, freshErrOut⟩ = some (.ret (rc, out)) ∧
      ((∃ traits, outcome = .ret (.ok traits) ∧ rc = 0 ∧ out.traitsOut = some traits.toInt) ∨
        (¬ ∃ traits, outcome = .ret (.ok traits)) ∧ rc ≠ 0 ∧ out.traitsOut = some 0) := by
  have hpanic : ∀ payload, processOutcome outcome = .panic payload →
      (¬ ∃ traits, outcome = .ret (.ok traits)) →
      ∃ rc out, processTrampoline handlers m args ⟨some 0, freshErrOut⟩ = some (.ret (rc, out)) ∧
        ((∃ traits, outcome = .ret (.ok traits) ∧ rc = 0 ∧ out.traitsOut = some traits.toInt) ∨
          (¬ ∃ traits, outcome = .ret (.ok traits)) ∧ rc ≠ 0 ∧ out.traitsOut = some 0) := by
    intro payload houtcome hnot
    obtain ⟨err, herr⟩ := writeCErr_fresh "panic in process callback"
    rw [houtcome] at hcall
    exact ⟨1, ⟨some 0, err⟩, processTrampoline_panic hcall herr, .inr ⟨hnot, by decide, rfl⟩⟩
  cases houtcome : outcome with
  | panic payload =>
      rw [houtcome] at hpanic
      exact hpanic payload rfl (by rintro ⟨traits, h⟩; cases h)
  | ret result =>
      cases hresult : result with
      | ok traits =>
          rw [houtcome, hresult] at hcall
          refine ⟨0, ⟨some traits.toInt, freshErrOut⟩, ?_, .inl ⟨traits, rfl, rfl, rfl⟩⟩
          rw [processTrampoline, hcall]
          rfl
      | error e =>
          have hnot : ¬ ∃ traits, (Unwind.ret (Except.error e) :
              Unwind (Except HandlerError (BitVec 64))) = .ret (.ok traits) := by
            rintro ⟨traits, h⟩
            cases h
          rw [houtcome, hresult] at hcall hpanic
          cases htext : e.text with
          | panic payload => exact hpanic payload (by simp [processOutcome, htext]) hnot
          | ret text =>
              -- the error is dropped inside the closure, after its text was taken
              cases hdrop : e.drop with
              | panic payload => exact hpanic payload (by simp [processOutcome, htext, hdrop]) hnot
              | ret u =>
                  obtain ⟨err, herr⟩ := writeCErr_fresh text
                  have hreturned : processOutcome (.ret (.error e)) = .ret (1, 0, some text) := by
                    simp [processOutcome, htext, hdrop]
                  rw [hreturned] at hcall
                  exact ⟨1, ⟨some 0, err⟩, processTrampoline_error hcall herr,
                    .inr ⟨hnot, by decide, rfl⟩⟩

end

/-- `deadletter_trampoline` returns 0 exactly on Ok. -/
theorem deadletterTrampoline_spec {handlers : Option HandlerSet} {m : Heap} {args : RecordArgs}
    {errorMsg : Address} {errorLen : ℤ} {outcome : Unwind ℤ}
    (hcall : deadletterCall handlers m args errorMsg errorLen = some outcome) :
    ∃ rc, deadletterTrampoline handlers m args errorMsg errorLen = some (.ret rc) ∧
      (rc = 0 ↔ outcome = .ret 0) := by
  cases outcome with
  | ret rc =>
      refine ⟨rc, by rw [deadletterTrampoline, hcall]; rfl, ?_⟩
      constructor
      · rintro rfl
        rfl
      · intro h
        exact Unwind.ret.inj h
  | panic payload =>
      refine ⟨1, ?_, ?_⟩
      · rw [deadletterTrampoline, hcall, Option.map_some]
        simp [dropPanicPayload_eq]
      · constructor
        · intro h
          cases h
        · intro h
          cases h

/-! ## The Go side -/

theorem processError_eq_none {rc : ℤ} {out : ErrOut} : processError rc out = none ↔ rc = 0 := by
  unfold processError
  split
  · simp [*]
  · split <;> simp [*]

theorem deadletterError_eq_none {rc : ℤ} : deadletterError rc = none ↔ rc = 0 := by
  unfold deadletterError
  split <;> simp [*]

theorem processTraits_toInt (traits : BitVec 64) :
    (processTraits traits.toInt).getD 0 = traits := by
  unfold processTraits
  split
  · rename_i hzero
    rw [Option.getD_none]
    exact (BitVec.eq_of_toInt_eq (hzero.trans BitVec.toInt_zero.symm)).symm
  · simp

theorem Releasable.release {m : Heap} {args : RecordArgs} (h : Releasable m args) :
    ∃ m', releaseRecord m args = some m' := by
  unfold releaseRecord
  cases hheaders : args.headers with
  | none =>
      obtain ⟨m', hfree, -⟩ := Heap.free_spec h.key.1 h.key.2
      exact ⟨m', hfree⟩
  | some a =>
      obtain ⟨hstart, hlive, hne⟩ := h.headers a hheaders
      obtain ⟨m₁, hfree₁, hrest⟩ := Heap.free_spec hstart hlive
      have hkeyLive : (m₁.cell args.key).isSome := by
        rw [hrest args.key hne.symm]
        exact h.key.2
      obtain ⟨m₂, hfree₂, -⟩ := Heap.free_spec h.key.1 hkeyLive
      exact ⟨m₂, by rw [Heap.freePointer, hfree₁, Option.bind_some, hfree₂]⟩

variable {T : Type*} {callbacks : CallbackSet} {h : HandlerSet} {valueOf : T → Option Bytes}
  {metaOf : T → RecordMeta} {m : Heap} {msg : Envelope T}

theorem processVerdict {rc : ℤ} {out : ProcessOut} {heap : Heap}
    {outcome : Unwind (Except HandlerError (BitVec 64))}
    (hcases : (∃ traits, outcome = .ret (.ok traits) ∧ rc = 0 ∧
        out.traitsOut = some traits.toInt) ∨
      (¬ ∃ traits, outcome = .ret (.ok traits)) ∧ rc ≠ 0 ∧ out.traitsOut = some 0) :
    ProcessVerdict outcome
      ⟨heap, processTraits (out.traitsOut.getD 0), processError rc out.err⟩ := by
  rcases hcases with ⟨traits, rfl, rfl, htraits⟩ | ⟨hnot, hrc, htraits⟩
  · have hnil : processError 0 out.err = none := processError_eq_none.mpr rfl
    refine ⟨⟨fun _ => ⟨traits, rfl⟩, fun _ => hnil⟩, ?_, ?_⟩
    · intro traits' h
      obtain rfl := Except.ok.inj (Unwind.ret.inj h)
      rw [htraits]
      exact processTraits_toInt traits
    · intro hnot
      exact absurd ⟨traits, rfl⟩ hnot
  · refine ⟨⟨fun h => absurd (processError_eq_none.mp h) hrc, fun h => absurd h hnot⟩, ?_, ?_⟩
    · intro traits h
      exact absurd ⟨traits, h⟩ hnot
    · intro _
      rw [htraits]
      rfl

/-- When `makeProcessMessage` returns, the handler was called, and what the trampoline left
is what it returns. -/
theorem makeProcessMessage_ran {ret : ProcessReturn} (hregistered : callbacks.process = true)
    (hret : makeProcessMessage callbacks (some h) valueOf metaOf m msg = some ret) :
    ∃ m' args message rc out heap,
      processCall (some h) m' args = some (processOutcome (h.process message)) ∧
      processTrampoline (some h) m' args ⟨some 0, freshErrOut⟩ = some (.ret (rc, out)) ∧
      ret = ⟨heap, processTraits (out.traitsOut.getD 0), processError rc out.err⟩ := by
  rw [makeProcessMessage, if_pos hregistered, Option.bind_eq_some_iff] at hret
  obtain ⟨packed, _, hret⟩ := hret
  rw [Option.bind_eq_some_iff] at hret
  obtain ⟨left, hleft, hret⟩ := hret
  have hborrow : ∃ message, borrowMessage packed.1 h.topic packed.2 = some message := by
    rw [processTrampoline, Option.bind_eq_some_iff] at hleft
    obtain ⟨result, hcall, _⟩ := hleft
    simp only [processCall, Option.map_eq_some_iff] at hcall
    obtain ⟨message, hmessage, _⟩ := hcall
    exact ⟨message, hmessage⟩
  obtain ⟨message, hmessage⟩ := hborrow
  have hcall : processCall (some h) packed.1 packed.2 =
      some (processOutcome (h.process message)) := by
    rw [processCall, hmessage, Option.map_some]
  obtain ⟨rc, out, hrun, -⟩ := processTrampoline_spec hcall
  rw [hrun, Option.some_inj] at hleft
  subst hleft
  rw [Unwind.externC_ret, Option.bind_some, Option.map_eq_some_iff] at hret
  obtain ⟨heap, _, rfl⟩ := hret
  exact ⟨packed.1, packed.2, message, rc, out, heap, hcall, hrun, rfl⟩

/-- `makeProcessMessage` runs the handler on the message that arrives, if it fits the address
space, and returns what the trampoline leaves. -/
theorem makeProcessMessage_runs (hregistered : callbacks.process = true)
    (hpackable : Packable (metaOf msg.payload).headers) :
    ∃ m' args heap,
      processCall (some h) m' args =
        some (processOutcome (h.process (arrivedMessage valueOf metaOf h.topic msg))) ∧
      ∀ rc out, processTrampoline (some h) m' args ⟨some 0, freshErrOut⟩ = some (.ret (rc, out)) →
        makeProcessMessage callbacks (some h) valueOf metaOf m msg =
          some ⟨heap, processTraits (out.traitsOut.getD 0), processError rc out.err⟩ := by
  obtain ⟨m', args, hpack, hreleasable, hborrow⟩ :=
    borrowMessage_packRecord valueOf metaOf m msg hpackable
  obtain ⟨heap, hrelease⟩ := hreleasable.release
  refine ⟨m', args, heap, ?_, fun rc out hrun => ?_⟩
  · rw [processCall, hborrow h.topic m' (Heap.Extends.refl m'), Option.map_some]
  · rw [makeProcessMessage, if_pos hregistered, hpack, Option.bind_some, hrun, Option.bind_some,
      Unwind.externC_ret, Option.bind_some, hrelease, Option.map_some]

/-- When `makeProcessMessage` returns, the handler was called and its verdict stands. -/
theorem makeProcessMessage_returned {ret : ProcessReturn} (hregistered : callbacks.process = true)
    (hret : makeProcessMessage callbacks (some h) valueOf metaOf m msg = some ret) :
    ∃ message, ProcessVerdict (h.process message) ret := by
  obtain ⟨m', args, message, rc, out, heap, hcall, hrun, rfl⟩ :=
    makeProcessMessage_ran hregistered hret
  obtain ⟨rc', out', hrun', hcases⟩ := processTrampoline_spec hcall
  rw [hrun, Option.some_inj, Unwind.ret.injEq, Prod.mk.injEq] at hrun'
  obtain ⟨rfl, rfl⟩ := hrun'
  exact ⟨message, processVerdict hcases⟩

/-- `makeProcessMessage` returns for every message that fits the address space, with the
verdict on the message that arrived. -/
theorem makeProcessMessage_total (hregistered : callbacks.process = true)
    (hpackable : Packable (metaOf msg.payload).headers) :
    ∃ ret, makeProcessMessage callbacks (some h) valueOf metaOf m msg = some ret ∧
      ProcessVerdict (h.process (arrivedMessage valueOf metaOf h.topic msg)) ret := by
  obtain ⟨m', args, heap, hcall, hreturns⟩ := makeProcessMessage_runs hregistered hpackable
  obtain ⟨rc, out, hrun, hcases⟩ := processTrampoline_spec hcall
  exact ⟨_, hreturns rc out hrun, processVerdict hcases⟩

/-- The return code of a dead-letter handler that is there. -/
theorem deadletterOutcome_eq_ret_zero
    {handle : Message → String → Unwind (Except HandlerError Unit)} {message : Message}
    {error : String} :
    deadletterOutcome (some handle) message error = .ret 0 ↔
      handle message error = .ret (.ok ()) := by
  unfold deadletterOutcome
  cases hresult : handle message error with
  | panic payload => simp [hresult]
  | ret result =>
      cases result with
      | ok value => simp [hresult]
      | error e => cases hdrop : e.drop <;> simp [hresult, hdrop]

variable {handle : Message → String → Unwind (Except HandlerError Unit)} {reason : Option Bytes}

/-- When `makeWriteDeadLetter` returns, the handler was called with the reason that arrived, and
its verdict stands. -/
theorem makeWriteDeadLetter_returned {ret : Heap × Option Bytes}
    (hregistered : callbacks.deadletter = true) (hhandle : h.deadLetter = some handle)
    (hret : makeWriteDeadLetter callbacks (some h) valueOf metaOf m msg reason = some ret) :
    ∃ message,
      DeadletterVerdict (handle message (decodeLossy (arrived (reason.getD [])))) ret.2 := by
  rw [makeWriteDeadLetter, if_pos hregistered, Option.bind_eq_some_iff] at hret
  obtain ⟨packed, _, hret⟩ := hret
  rw [Option.bind_eq_some_iff] at hret
  obtain ⟨reasonPtr, hreason, hret⟩ := hret
  obtain ⟨m₁, hwritten, hheld, -, -⟩ := cString_spec packed.1 (reason.getD [])
  rw [hwritten, Option.some_inj] at hreason
  subst hreason
  rw [Option.bind_eq_some_iff] at hret
  obtain ⟨left, hleft, hret⟩ := hret
  have hcall := hleft
  rw [deadletterTrampoline, Option.map_eq_some_iff] at hcall
  obtain ⟨outcome, hcall, _⟩ := hcall
  obtain ⟨rc, hrun, hrc⟩ := deadletterTrampoline_spec hcall
  rw [hrun, Option.some_inj] at hleft
  subst hleft
  rw [Unwind.externC_ret, Option.bind_some, Option.bind_eq_some_iff] at hret
  obtain ⟨m', _, hret⟩ := hret
  rw [Option.map_eq_some_iff] at hret
  obtain ⟨heap, _, rfl⟩ := hret
  simp only [deadletterCall, Option.bind_eq_some_iff, Option.map_eq_some_iff] at hcall
  obtain ⟨error, herror, message, _, rfl⟩ := hcall
  rw [borrowBytes_of_holds hheld, Option.some_inj] at herror
  subst herror
  refine ⟨message, ?_⟩
  rw [DeadletterVerdict, deadletterError_eq_none, hrc, hhandle, deadletterOutcome_eq_ret_zero]

/-- `makeWriteDeadLetter` returns for every message that fits the address space, with the
verdict on the message that arrived. -/
theorem makeWriteDeadLetter_total (hregistered : callbacks.deadletter = true)
    (hhandle : h.deadLetter = some handle) (hpackable : Packable (metaOf msg.payload).headers) :
    ∃ ret, makeWriteDeadLetter callbacks (some h) valueOf metaOf m msg reason = some ret ∧
      DeadletterVerdict (handle (arrivedMessage valueOf metaOf h.topic msg)
        (decodeLossy (arrived (reason.getD [])))) ret.2 := by
  obtain ⟨m', args, hpack, hreleasable, hborrow⟩ :=
    borrowMessage_packRecord valueOf metaOf m msg hpackable
  obtain ⟨m'', hreason, hheld, hlive, hextends⟩ := cString_spec m' (reason.getD [])
  have hcall : deadletterCall (some h) m'' args ⟨m'.blocks.length, 0⟩
      (wrap 32 (reason.getD []).length) =
      some (deadletterOutcome (some handle) (arrivedMessage valueOf metaOf h.topic msg)
        (decodeLossy (arrived (reason.getD [])))) := by
    rw [deadletterCall, borrowBytes_of_holds hheld, Option.bind_some,
      hborrow h.topic m'' hextends, Option.map_some, hhandle]
  obtain ⟨rc, hrun, hrc⟩ := deadletterTrampoline_spec hcall
  obtain ⟨m₁, hfree, hrest⟩ := Heap.free_spec (m := m'') (a := ⟨m'.blocks.length, 0⟩) rfl hlive
  -- the reason's block is newer than the blocks of the record
  have hsurvives : ∀ a, (m'.cell a).isSome → (m₁.cell a).isSome := by
    intro a ha
    have hbefore := Heap.block_lt_of_cell ha
    rw [hrest a (by simp only [ne_eq]; omega)]
    exact hextends.live ha
  have hreleasable₁ : Releasable m₁ args := by
    refine ⟨⟨hreleasable.key.1, hsurvives _ hreleasable.key.2⟩, fun a ha => ?_⟩
    obtain ⟨hstart, hlive', hne⟩ := hreleasable.headers a ha
    exact ⟨hstart, hsurvives a hlive', hne⟩
  obtain ⟨heap, hrelease⟩ := hreleasable₁.release
  refine ⟨(heap, deadletterError rc), ?_, ?_⟩
  · rw [makeWriteDeadLetter, if_pos hregistered, hpack, Option.bind_some]
    simp only
    rw [hreason, Option.bind_some, hrun, Option.bind_some, Unwind.externC_ret, Option.bind_some,
      hfree, Option.bind_some, hrelease, Option.map_some]
  · rw [DeadletterVerdict, deadletterError_eq_none, hrc, deadletterOutcome_eq_ret_zero]

end LlingrKafka.Wire
