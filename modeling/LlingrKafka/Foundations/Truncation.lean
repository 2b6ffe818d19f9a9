import LlingrKafka.Foundations.Utf8

/-!
# Cutting a text at a character boundary

The boundaries of a text are the ends of its prefixes (`isCharBoundary_iff`).  So going back
from byte `cap` to the last boundary leaves the longest prefix of at most `cap` bytes
(`longestPrefix_floorBoundary`).
-/

namespace Utf8

/-- The longest prefix of `s` with at most `cap` bytes. -/
structure LongestPrefix (cap : ℕ) (s t : String) : Prop where
  isPrefix : t.toList <+: s.toList
  fits : (encode t).length ≤ cap
  longest : ∀ u : String, u.toList <+: s.toList → (encode u).length ≤ cap →
    (encode u).length ≤ (encode t).length

/-! ## Boundaries -/

/-- A character is a first byte and continuation bytes. -/
theorem utf8EncodeChar_eq_cons (c : Char) :
    ∃ lead tail, String.utf8EncodeChar c = lead :: tail ∧ isContinuation lead = false ∧
      ∀ b ∈ tail, isContinuation b = true := by
  have hlead : ∀ n : ℕ, n % 256 < 0x80 ∨ 0xC0 ≤ n % 256 →
      isContinuation (UInt8.ofNat n) = false := by
    intro n hn
    have hlow : (0x80 : UInt8).toNat = 128 := rfl
    have hhigh : (0xC0 : UInt8).toNat = 192 := rfl
    rw [isContinuation, Bool.and_eq_false_iff, decide_eq_false_iff_not, decide_eq_false_iff_not,
      UInt8.le_iff_toNat_le, UInt8.lt_iff_toNat_lt, UInt8.toNat_ofNat', hlow, hhigh]
    omega
  have htail : ∀ n : ℕ, isContinuation (UInt8.ofNat (n % 0x40 + 0x80)) = true := by
    intro n
    have hlow : (0x80 : UInt8).toNat = 128 := rfl
    have hhigh : (0xC0 : UInt8).toNat = 192 := rfl
    rw [isContinuation, Bool.and_eq_true, decide_eq_true_eq, decide_eq_true_eq,
      UInt8.le_iff_toNat_le, UInt8.lt_iff_toNat_lt, UInt8.toNat_ofNat', hlow, hhigh]
    omega
  unfold String.utf8EncodeChar
  simp only
  -- one case for each length of the encoding
  split_ifs with hone htwo hthree
  · exact ⟨_, [], rfl, hlead _ (by omega), by simp⟩
  · refine ⟨_, _, rfl, hlead _ (by omega), ?_⟩
    rw [List.forall_mem_singleton]
    exact htail _
  · refine ⟨_, _, rfl, hlead _ (by omega), ?_⟩
    rw [List.forall_mem_cons, List.forall_mem_singleton]
    exact ⟨htail _, htail _⟩
  · refine ⟨_, _, rfl, hlead _ (by omega), ?_⟩
    rw [List.forall_mem_cons, List.forall_mem_cons, List.forall_mem_singleton]
    exact ⟨htail _, htail _, htail _⟩

/-- The boundaries of a text are the ends of its prefixes. -/
theorem isCharBoundary_iff {cs : List Char} {n : ℕ} :
    isCharBoundary (cs.flatMap String.utf8EncodeChar) n = true ↔
      ∃ p, p <+: cs ∧ (p.flatMap String.utf8EncodeChar).length = n := by
  induction cs generalizing n with
  | nil =>
      simp only [List.flatMap_nil, isCharBoundary, List.getElem?_nil, List.length_nil,
        List.prefix_nil, beq_iff_eq]
      constructor
      · rintro rfl
        exact ⟨[], rfl, rfl⟩
      · rintro ⟨p, rfl, hlen⟩
        exact hlen.symm
  | cons c cs ih =>
      -- only the lead byte of a character is not a continuation byte
      obtain ⟨lead, tail, hbytes, hlead, htail⟩ := utf8EncodeChar_eq_cons c
      have hcons : ∀ p : List Char, ((c :: p).flatMap String.utf8EncodeChar).length =
          (tail.length + 1) + (p.flatMap String.utf8EncodeChar).length := by
        intro p
        rw [List.flatMap_cons, List.length_append, hbytes, List.length_cons]
      rw [List.flatMap_cons, hbytes]
      by_cases hzero : n = 0
      · rw [hzero]
        refine iff_of_true ?_ ⟨[], List.nil_prefix, rfl⟩
        simp [isCharBoundary, hlead]
      · by_cases hinside : n < (lead :: tail).length
        · -- inside the first character
          refine iff_of_false ?_ ?_
          · obtain ⟨i, rfl⟩ := Nat.exists_eq_succ_of_ne_zero hzero
            have hi : i < tail.length := by simpa using hinside
            have hbyte : (lead :: tail ++ cs.flatMap String.utf8EncodeChar)[i + 1]? =
                some tail[i] := by
              rw [List.getElem?_append_left hinside, List.getElem?_cons_succ,
                List.getElem?_eq_getElem hi]
            rw [isCharBoundary, hbyte]
            simp [htail _ (List.getElem_mem hi)]
          · rintro ⟨p, hprefix, hlen⟩
            cases p with
            | nil => exact hzero hlen.symm
            | cons d p =>
                obtain ⟨rfl, -⟩ := List.cons_prefix_cons.mp hprefix
                rw [hcons] at hlen
                rw [List.length_cons] at hinside
                omega
        -- past the first character: shift it away and use the rest
        · have hge : (lead :: tail).length ≤ n := Nat.le_of_not_lt hinside
          have hshift : isCharBoundary (lead :: tail ++ cs.flatMap String.utf8EncodeChar) n =
              isCharBoundary (cs.flatMap String.utf8EncodeChar) (n - (lead :: tail).length) := by
            rw [isCharBoundary, isCharBoundary, List.getElem?_append_right hge, List.length_append]
            cases (cs.flatMap String.utf8EncodeChar)[n - (lead :: tail).length]? with
            | some b => rfl
            | none =>
                simp only
                rw [Bool.eq_iff_iff, beq_iff_eq, beq_iff_eq]
                omega
          rw [hshift, ih]
          rw [List.length_cons] at hge ⊢
          constructor
          · rintro ⟨p, hprefix, hlen⟩
            refine ⟨c :: p, List.cons_prefix_cons.mpr ⟨rfl, hprefix⟩, ?_⟩
            rw [hcons, hlen]
            omega
          · rintro ⟨p, hprefix, hlen⟩
            cases p with
            | nil =>
                rw [List.flatMap_nil, List.length_nil] at hlen
                omega
            | cons d p =>
                obtain ⟨rfl, hrest⟩ := List.cons_prefix_cons.mp hprefix
                rw [hcons] at hlen
                exact ⟨p, hrest, by omega⟩

/-- A boundary is found, and none is skipped. -/
theorem floorBoundary_spec (bytes : Bytes) (n : ℕ) :
    (floorBoundary bytes n = 0 ∨ isCharBoundary bytes (floorBoundary bytes n) = true) ∧
      ∀ k ≤ n, isCharBoundary bytes k = true → k ≤ floorBoundary bytes n := by
  induction n with
  | zero => exact ⟨.inl rfl, fun k hk _ => hk⟩
  | succ n ih =>
      unfold floorBoundary
      split_ifs with hboundary
      · exact ⟨.inr hboundary, fun k hk _ => hk⟩
      · refine ⟨ih.1, fun k hk hk' => ih.2 k ?_ hk'⟩
        have hne : k ≠ n + 1 := by
          rintro rfl
          exact hboundary hk'
        omega

/-! ## Prefixes -/

/-- No character starts like another one, so the bytes of a prefix are those of a prefix. -/
theorem isPrefix_of_flatMap {p cs : List Char}
    (h : p.flatMap String.utf8EncodeChar <+: cs.flatMap String.utf8EncodeChar) : p <+: cs := by
  induction p generalizing cs with
  | nil => exact List.nil_prefix
  | cons c p ih =>
      obtain ⟨rest, hrest⟩ := h
      have hleft : (cs.flatMap String.utf8EncodeChar).toByteArray.utf8DecodeChar? 0 = some c := by
        rw [← hrest, List.flatMap_cons, List.append_assoc, List.toByteArray_append]
        exact ByteArray.utf8DecodeChar?_utf8EncodeChar_append
      cases cs with
      | nil =>
          rw [List.flatMap_cons, List.flatMap_nil, List.append_eq_nil_iff,
            List.append_eq_nil_iff] at hrest
          exact absurd hrest.1.1 String.utf8EncodeChar_ne_nil
      | cons d cs =>
          have hright : ((d :: cs).flatMap String.utf8EncodeChar).toByteArray.utf8DecodeChar? 0 =
              some d := by
            rw [List.flatMap_cons, List.toByteArray_append]
            exact ByteArray.utf8DecodeChar?_utf8EncodeChar_append
          obtain rfl := Option.some_inj.mp (hleft.symm.trans hright)
          rw [List.flatMap_cons, List.flatMap_cons, List.append_assoc] at hrest
          exact List.cons_prefix_cons.mpr ⟨rfl, ih ⟨rest, List.append_cancel_left hrest⟩⟩

theorem isPrefix_of_encode {u s : String} (h : encode u <+: encode s) : u.toList <+: s.toList := by
  rw [encode_eq, encode_eq] at h
  exact isPrefix_of_flatMap h

/-! ## The cut -/

/-- Going back to a boundary leaves the longest prefix that fits. -/
theorem longestPrefix_floorBoundary (cap : ℕ) (s : String) :
    ∃ t, LongestPrefix cap s t ∧
      encode t = (encode s).take (floorBoundary (encode s) (min (encode s).length cap)) ∧
      (encode t).length = floorBoundary (encode s) (min (encode s).length cap) := by
  obtain ⟨hboundary, hgreatest⟩ := floorBoundary_spec (encode s) (min (encode s).length cap)
  have hle := floorBoundary_le (encode s) (min (encode s).length cap)
  obtain ⟨p, hprefix, hlen⟩ : ∃ p, p <+: s.toList ∧ (p.flatMap String.utf8EncodeChar).length =
      floorBoundary (encode s) (min (encode s).length cap) := by
    rcases hboundary with hzero | hboundary
    · exact ⟨[], List.nil_prefix, hzero.symm⟩
    · rw [encode_eq] at hboundary ⊢
      exact isCharBoundary_iff.mp hboundary
  have hencode : encode (String.ofList p) = p.flatMap String.utf8EncodeChar := by
    rw [encode_eq, String.toList_ofList]
  refine ⟨String.ofList p, ⟨by rwa [String.toList_ofList], ?_, ?_⟩, ?_, ?_⟩
  · rw [hencode, hlen]
    omega
  · intro u hu hfits
    rw [hencode, hlen]
    obtain ⟨rest, hrest⟩ := hu
    have hwhole : (encode u).length ≤ (encode s).length := by
      rw [encode_eq s, ← hrest, List.flatMap_append, List.length_append, ← encode_eq]
      omega
    refine hgreatest _ (by omega) ?_
    rw [encode_eq s]
    exact isCharBoundary_iff.mpr ⟨u.toList, ⟨rest, hrest⟩, by rw [← encode_eq]⟩
  · obtain ⟨rest, hrest⟩ := hprefix
    rw [hencode, ← hlen, encode_eq s, ← hrest, List.flatMap_append, List.take_left]
  · rw [hencode, hlen]

namespace LongestPrefix

variable {cap : ℕ} {s t : String}

/-- A text that fits is not cut. -/
theorem eq_of_fits (h : LongestPrefix cap s t) (hfits : (encode s).length ≤ cap) : t = s := by
  obtain ⟨rest, hrest⟩ := h.isPrefix
  have hlen := h.longest s (List.prefix_refl _) hfits
  rw [encode_eq s, encode_eq t, ← hrest, List.flatMap_append, List.length_append] at hlen
  have hnil : rest = [] := by
    have hle := length_le_encode rest
    exact List.length_eq_zero_iff.mp (by omega)
  rw [hnil, List.append_nil] at hrest
  exact String.toList_inj.mp hrest

/-- No more of the bytes that fit are a text. -/
theorem decode_take (h : LongestPrefix cap s t) {k : ℕ} (hfits : k ≤ cap)
    (hlong : (encode t).length < k) (hk : k ≤ (encode s).length) :
    decode ((encode s).take k) = none := by
  cases hdecode : decode ((encode s).take k) with
  | none => rfl
  | some u =>
      have hencode := encode_of_decode hdecode
      have hlength : (encode u).length = k := by
        rw [hencode, List.length_take]
        omega
      have hlongest := h.longest u
        (isPrefix_of_encode (hencode ▸ List.take_prefix k (encode s))) (by omega)
      omega

/-- A cut loses less than one character. -/
theorem length_gt (h : LongestPrefix cap s t) (hlong : cap < (encode s).length) :
    cap < (encode t).length + 4 := by
  obtain ⟨rest, hrest⟩ := h.isPrefix
  have hfits := h.fits
  cases rest with
  | nil =>
      rw [List.append_nil] at hrest
      obtain rfl := String.toList_inj.mp hrest
      omega
  | cons c rest =>
      by_contra hshort
      have hnext : encode (String.ofList (t.toList ++ [c])) =
          encode t ++ String.utf8EncodeChar c := by
        rw [encode_eq, String.toList_ofList, List.flatMap_append, List.flatMap_singleton, encode_eq]
      have hsize := c.utf8Size_le_four
      have hpos := c.utf8Size_pos
      have hlonger := h.longest (String.ofList (t.toList ++ [c]))
        (by rw [String.toList_ofList, ← hrest]; exact ⟨rest, by simp⟩)
        (by rw [hnext, List.length_append, String.length_utf8EncodeChar]; omega)
      rw [hnext, List.length_append, String.length_utf8EncodeChar] at hlonger
      omega

end LongestPrefix

end Utf8
