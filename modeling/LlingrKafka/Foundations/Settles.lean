import LlingrKafka.Foundations.Checks

/-!
# When a computation fails, and with what

A specification of a computation in `Except` that leaves nothing open: `Settles x bad E Q`
says that `x` fails exactly when `bad` holds, then with an error in `E`, and that it returns
a value in `Q` otherwise.  The rules compose it along a sequence of stages, where a later
stage is only reached past the conditions of the earlier ones.
-/

namespace Checks

universe u v

variable {ε : Type u} {α β : Type v}

/-- `x` fails in `E` when `bad` holds, and returns in `Q` otherwise. -/
structure Settles (x : Except ε α) (bad : Prop) (E : ε → Prop) (Q : α → Prop) : Prop where
  refused : bad → ∃ e, x = .error e ∧ E e
  accepted : ¬ bad → ∃ a, x = .ok a ∧ Q a

namespace Settles

variable {x : Except ε α} {bad bad' : Prop} {E E' : ε → Prop} {Q : α → Prop}

theorem reject {bad : Prop} [Decidable bad] {e : ε} :
    Settles (reject bad e) bad (· = e) fun _ => True where
  refused := fun h => ⟨e, reject_eq_error.mpr ⟨h, rfl⟩, rfl⟩
  accepted := fun h => ⟨(), reject_eq_ok.mpr h, trivial⟩

theorem ok {a : α} (h : Q a) : Settles (.ok a) False E Q where
  refused := False.elim
  accepted := fun _ => ⟨a, rfl, h⟩

theorem mono {Q' : α → Prop} (h : Settles x bad E Q) (hbad : bad ↔ bad')
    (hE : ∀ e, bad → E e → E' e) (hQ : ∀ a, ¬ bad → Q a → Q' a) : Settles x bad' E' Q' := by
  constructor
  · intro hb
    have hb := hbad.mpr hb
    obtain ⟨e, he, herror⟩ := h.refused hb
    exact ⟨e, he, hE e hb herror⟩
  · intro hb
    have hb := mt hbad.mp hb
    obtain ⟨a, ha, hvalue⟩ := h.accepted hb
    exact ⟨a, ha, hQ a hb hvalue⟩

/-- A failing stage ends the sequence; past it the next one decides. -/
theorem bind {f : α → Except ε β} {Q' : β → Prop} (h : Settles x bad E Q)
    (hf : ∀ a, ¬ bad → Q a → Settles (f a) bad' E' Q') :
    Settles (x >>= f) (bad ∨ bad') (fun e => (bad ∧ E e) ∨ (¬ bad ∧ bad' ∧ E' e)) Q' := by
  constructor
  · intro hor
    by_cases hb : bad
    · obtain ⟨e, he, herror⟩ := h.refused hb
      exact ⟨e, bind_eq_error.mpr (.inl he), .inl ⟨hb, herror⟩⟩
    · have hb' := hor.resolve_left hb
      obtain ⟨a, ha, hvalue⟩ := h.accepted hb
      obtain ⟨e, he, herror⟩ := (hf a hb hvalue).refused hb'
      exact ⟨e, bind_eq_error.mpr (.inr ⟨a, ha, he⟩), .inr ⟨hb, hb', herror⟩⟩
  · intro hnot
    obtain ⟨hb, hb'⟩ := not_or.mp hnot
    obtain ⟨a, ha, hvalue⟩ := h.accepted hb
    obtain ⟨b, hfb, hresult⟩ := (hf a hb hvalue).accepted hb'
    exact ⟨b, bind_eq_ok.mpr ⟨a, ha, hfb⟩, hresult⟩

/-- Two stages whose errors are of one kind. -/
theorem andThen {f : α → Except ε β} {Q' : β → Prop} (h : Settles x bad E Q)
    (hf : ∀ a, Q a → Settles (f a) bad' E Q') : Settles (x >>= f) (bad ∨ bad') E Q' := by
  refine (h.bind fun a _ => hf a).mono Iff.rfl ?_ fun _ _ => id
  rintro e - (⟨-, herror⟩ | ⟨-, -, herror⟩)
  · exact herror
  · exact herror

theorem map {f : α → β} {Q' : β → Prop} (h : Settles x bad E Q) (hf : ∀ a, Q a → Q' (f a)) :
    Settles (x.map f) bad E Q' := by
  constructor
  · intro hb
    obtain ⟨e, he, herror⟩ := h.refused hb
    exact ⟨e, map_eq_error.mpr he, herror⟩
  · intro hb
    obtain ⟨a, ha, hvalue⟩ := h.accepted hb
    exact ⟨f a, map_eq_ok.mpr ⟨a, ha, rfl⟩, hf a hvalue⟩

theorem mapError {ε' : Type u} {f : ε → ε'} {E' : ε' → Prop} (h : Settles x bad E Q)
    (hf : ∀ e, E e → E' (f e)) : Settles (x.mapError f) bad E' Q := by
  constructor
  · intro hb
    obtain ⟨e, he, herror⟩ := h.refused hb
    exact ⟨f e, mapError_eq_error.mpr ⟨e, he, rfl⟩, hf e herror⟩
  · intro hb
    obtain ⟨a, ha, hvalue⟩ := h.accepted hb
    exact ⟨a, mapError_eq_ok.mpr ha, hvalue⟩

/-- What is returned is the result. -/
theorem with_eq (h : Settles x bad E Q) : Settles x bad E fun a => x = .ok a ∧ Q a where
  refused := h.refused
  accepted := fun hb => (h.accepted hb).imp fun _ ha => ⟨ha.1, ha.1, ha.2⟩

end Settles

end Checks
