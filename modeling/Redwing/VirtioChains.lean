/-
Who owns a descriptor.  What allocation and `free_chain` do is stated once for
each of them; the chains of the requests in flight are then disjoint, make up
just the descriptors that are not free, and stay linked until they are freed.
-/
import Redwing.Virtio

namespace Redwing.Virtio

open Function List Option

/-! ### Chains -/

/-- Three descriptors of the table. -/
structure Chain.Valid (c : Chain) : Prop where
  nodup : c.indices.Nodup
  lt : ∀ i ∈ c.indices, i < ringSize

lemma Chain.idx0_mem (c : Chain) : c.idx0 ∈ c.indices := List.mem_cons_self

/-- The descriptors of a submitted chain lead from one to the next. -/
structure Linked (desc : Nat → VirtqDesc) (c : Chain) : Prop where
  first : (desc c.idx0).hasNext = true ∧ (desc c.idx0).next = c.idx1
  second : (desc c.idx1).hasNext = true ∧ (desc c.idx1).next = c.idx2
  last : (desc c.idx2).hasNext = false

lemma Linked.congr (h : Linked desc c) (hsame : ∀ i ∈ c.indices, desc' i = desc i) :
    Linked desc' c := by
  have h0 := hsame c.idx0 (by simp [Chain.indices])
  have h1 := hsame c.idx1 (by simp [Chain.indices])
  have h2 := hsame c.idx2 (by simp [Chain.indices])
  exact ⟨h0 ▸ h.first, h1 ▸ h.second, h2 ▸ h.last⟩

/-! ### Allocation -/

namespace Shared

variable {s : Shared}

lemma allocDesc_cases (s : Shared) : (∃ idx, s.allocDesc =
      some (idx, { s with free := update s.free idx false }) ∧
    idx < ringSize ∧ s.free idx = true) ∨ s.allocDesc = none := by
  cases hfind : (range ringSize).find? s.free with
  | none => exact .inr (by simp [allocDesc, hfind])
  | some idx =>
    refine .inl ⟨idx, by simp [allocDesc, hfind], ?_, find?_some hfind⟩
    exact mem_range.mp (mem_of_find?_eq_some hfind)

lemma freeDesc_eq (hlt : index < ringSize) (hused : s.free index = false) :
    s.freeDesc index = some { s with
      free := update s.free index true
      desc := update s.desc index .empty } := by
  simp [freeDesc, Nat.not_le.mpr hlt, hused]

lemma alloc3Desc_cases (s : Shared) :
    (∃ c free, s.alloc3Desc = some (some c, { s with free }) ∧ c.Valid ∧
      (∀ i ∈ c.indices, s.free i = true) ∧
      ∀ i, free i = false ↔ i ∈ c.indices ∨ s.free i = false) ∨
    ∃ desc, s.alloc3Desc = some (none, { s with desc }) ∧
      ∀ i, s.free i = false → desc i = s.desc i := by
  rcases allocDesc_cases s with ⟨a, ha, halt, hafree⟩ | hnone
  · rcases allocDesc_cases { s with free := update s.free a false } with
      ⟨b, hb, hblt, hbfree⟩ | hnone
    · have hba : b ≠ a := by
        rintro rfl
        simp at hbfree
      simp only [update_of_ne hba] at hbfree
      rcases allocDesc_cases { s with
          free := update (update s.free a false) b false } with
        ⟨c, hc, hclt, hcfree⟩ | hnone
      · have hcb : c ≠ b := by
          rintro rfl
          simp at hcfree
        have hca : c ≠ a := by
          rintro rfl
          simp [update_of_ne hcb] at hcfree
        simp only [update_of_ne hcb, update_of_ne hca] at hcfree
        refine .inl ⟨⟨a, b, c⟩, update (update (update s.free a false) b false) c false,
          by simp only [alloc3Desc, ha, hb, hc], ?_, ?_, ?_⟩
        · refine ⟨by simp [Chain.indices, hba.symm, hca.symm, hcb.symm], ?_⟩
          simp [Chain.indices, halt, hblt, hclt]
        · simp [Chain.indices, hafree, hbfree, hcfree]
        intro i
        simp only [update_apply, Chain.indices, mem_cons, not_mem_nil, or_false]
        split_ifs <;> simp_all
      · have hfree₁ := freeDesc_eq (s := { s with
            free := update (update s.free a false) b false })
          halt (by simp [update_of_ne hba.symm])
        have hfree₂ := freeDesc_eq (s := { s with
            free := update (update (update s.free a false) b false) a true
            desc := update s.desc a .empty })
          hblt (by simp [update_of_ne hba])
        refine .inr ⟨update (update s.desc a .empty) b .empty, ?_, ?_⟩
        · simp only [alloc3Desc, ha, hb, hnone, hfree₁, hfree₂, bind_some,
            map_some, some.injEq, Prod.mk.injEq, true_and]
          congr 1
          grind
        · grind
    · have hfree := freeDesc_eq (s := { s with free := update s.free a false }) halt (by simp)
      refine .inr ⟨update s.desc a .empty, ?_, ?_⟩
      · simp only [alloc3Desc, ha, hnone, hfree, map_some, some.injEq, Prod.mk.injEq, true_and]
        congr 1
        grind
      · grind
  · exact .inr ⟨s.desc, by simp only [alloc3Desc, hnone], fun _ _ => rfl⟩

/-! ### Freeing a chain -/

lemma freeLoop_next (hlt : idx < ringSize)
    (hused : s.free idx = false) (hnext : (s.desc idx).hasNext = true) :
    s.freeLoop idx (fuel + 1) = freeLoop { s with
      free := update s.free idx true
      desc := update s.desc idx .empty } (s.desc idx).next fuel := by
  simp [freeLoop, freeDesc_eq hlt hused, hnext]

lemma freeLoop_last (hlt : idx < ringSize)
    (hused : s.free idx = false) (hlast : (s.desc idx).hasNext = false) :
    s.freeLoop idx (fuel + 1) = some { s with
      free := update s.free idx true
      desc := update s.desc idx .empty } := by
  simp [freeLoop, freeDesc_eq hlt hused, hlast]

lemma freeChain_spec (hvalid : c.Valid)
    (hused : ∀ i ∈ c.indices, s.free i = false) (hlinked : Linked s.desc c) :
    ∃ free desc, s.freeChain c.idx0 = some { s with free, desc } ∧
      (∀ i, free i = false ↔ i ∉ c.indices ∧ s.free i = false) ∧
      ∀ i ∉ c.indices, desc i = s.desc i := by
  obtain ⟨a, b, d⟩ := c
  have hnodup := hvalid.nodup
  simp only [Chain.indices, nodup_cons, mem_cons, not_mem_nil,
    or_false, not_or, not_false_eq_true, nodup_nil, and_true] at hnodup
  obtain ⟨⟨hab, had⟩, hbd⟩ := hnodup
  have hlt := hvalid.lt
  simp only [Chain.indices, mem_cons, not_mem_nil, or_false,
    forall_eq_or_imp, forall_eq] at hlt hused
  obtain ⟨halt, hblt, hdlt⟩ := hlt
  obtain ⟨hafree, hbfree, hdfree⟩ := hused
  have hfirst := hlinked.first
  have hsecond := hlinked.second
  have hlast := hlinked.last
  simp only at hfirst hsecond hlast
  refine ⟨update (update (update s.free a true) b true) d true,
    update (update (update s.desc a .empty) b .empty) d .empty, ?_, ?_, ?_⟩
  · rw [freeChain, ringSize, freeLoop_next halt hafree hfirst.1, hfirst.2,
      freeLoop_next hblt (by simp [update_of_ne (Ne.symm hab), hbfree])
        (by simp [update_of_ne (Ne.symm hab), hsecond])]
    simp only [update_of_ne (Ne.symm hab), hsecond.2]
    rw [freeLoop_last hdlt (by simp [update_of_ne (Ne.symm had),
          update_of_ne (Ne.symm hbd), hdfree])
        (by simp [update_of_ne (Ne.symm had), update_of_ne (Ne.symm hbd), hlast])]
  · intro i
    simp only [update_apply, Chain.indices, mem_cons, not_mem_nil, or_false, not_or]
    split_ifs <;> simp_all
  intro i hi
  simp only [Chain.indices, mem_cons, not_mem_nil, or_false, not_or] at hi
  simp [update_of_ne hi.1, update_of_ne hi.2.1, update_of_ne hi.2.2]

/-! ### Submitting a chain -/

lemma sendRwCommand_linked (hvalid : c.Valid) : Linked (s.sendRwCommand c r).desc c := by
  obtain ⟨a, b, d⟩ := c
  have hnodup := hvalid.nodup
  simp only [Chain.indices, nodup_cons, mem_cons, not_mem_nil,
    or_false, not_or, not_false_eq_true, nodup_nil, and_true] at hnodup
  obtain ⟨⟨hab, had⟩, hbd⟩ := hnodup
  have hsmall : ∀ i ∈ Chain.indices ⟨a, b, d⟩, i % 2 ^ 16 = i := fun i hi =>
    Nat.mod_eq_of_lt (Nat.lt_trans (hvalid.lt i hi) (by decide))
  have hb := hsmall b (by simp [Chain.indices])
  have hd := hsmall d (by simp [Chain.indices])
  constructor
  · simp only [sendRwCommand, setupReqDesc, setupDataDesc, setupStatusDesc, update_of_ne hab,
      update_of_ne had, update_self, hb, and_self]
  · simp only [sendRwCommand, setupReqDesc, setupDataDesc, setupStatusDesc, update_of_ne hbd,
      update_self, hd, and_self]
  · simp [sendRwCommand, setupReqDesc, setupDataDesc, setupStatusDesc, update_self]

lemma sendRwCommand_desc (r : Request)
    (hi : i ∉ c.indices) : (s.sendRwCommand c r).desc i = s.desc i := by
  simp only [Chain.indices, mem_cons, not_mem_nil, or_false, not_or] at hi
  simp [sendRwCommand, setupReqDesc, setupDataDesc, setupStatusDesc, update_of_ne hi.1,
    update_of_ne hi.2.1, update_of_ne hi.2.2]

end Shared

/-! ### Ownership -/

/-- The chains in `own` are disjoint and are just the descriptors in use. -/
structure Owned (own : Nat → Option Chain) (free : Nat → Bool) : Prop where
  valid : ∀ t c, own t = some c → c.Valid
  apart : ∀ t u c d i, own t = some c → own u = some d → i ∈ c.indices → i ∈ d.indices → t = u
  used_iff : ∀ i, i < ringSize → (free i = false ↔ ∃ t c, own t = some c ∧ i ∈ c.indices)

namespace Owned

variable {own : Nat → Option Chain} {free free' : Nat → Bool} {c : Chain}

lemma used (h : Owned own free) (hown : own t = some c) :
    ∀ i ∈ c.indices, free i = false := fun i hi =>
  (h.used_iff i ((h.valid t c hown).lt i hi)).mpr ⟨t, c, hown, hi⟩

lemma take (h : Owned own free) (hnone : own t = none) (hvalid : c.Valid)
    (hfree : ∀ i ∈ c.indices, free i = true)
    (hfree' : ∀ i, free' i = false ↔ i ∈ c.indices ∨ free i = false) :
    Owned (update own t (some c)) free' := by
  have hnew : ∀ u d i, own u = some d → i ∈ d.indices → i ∉ c.indices := by
    intro u d i hu hid hic
    have hused := h.used hu i hid
    rw [hfree i hic] at hused
    cases hused
  have hcases : ∀ u d, update own t (some c) u = some d →
      (u = t ∧ d = c) ∨ (u ≠ t ∧ own u = some d) := by
    intro u d hu
    by_cases hut : u = t
    · subst hut
      rw [update_self] at hu
      exact .inl ⟨rfl, (some.inj hu).symm⟩
    · rw [update_of_ne hut] at hu
      exact .inr ⟨hut, hu⟩
  constructor
  · intro u d hu
    rcases hcases u d hu with ⟨rfl, rfl⟩ | ⟨-, hold⟩
    · exact hvalid
    · exact h.valid u d hold
  · intro u v d e i hu hv hid hie
    rcases hcases u d hu with ⟨rfl, rfl⟩ | ⟨-, hold⟩
    · rcases hcases v e hv with ⟨rfl, rfl⟩ | ⟨-, hold'⟩
      · rfl
      · exact absurd hid (hnew v e i hold' hie)
    rcases hcases v e hv with ⟨rfl, rfl⟩ | ⟨-, hold'⟩
    · exact absurd hie (hnew u d i hold hid)
    · exact h.apart u v d e i hold hold' hid hie
  intro i hi
  rw [hfree', h.used_iff i hi]
  constructor
  · rintro (hic | ⟨u, d, hu, hid⟩)
    · exact ⟨t, c, update_self .., hic⟩
    · have hut : u ≠ t := by
        rintro rfl
        rw [hnone] at hu
        cases hu
      exact ⟨u, d, by rw [update_of_ne hut]; exact hu, hid⟩
  rintro ⟨u, d, hu, hid⟩
  rcases hcases u d hu with ⟨rfl, rfl⟩ | ⟨-, hold⟩
  · exact .inl hid
  · exact .inr ⟨u, d, hold, hid⟩

lemma drop (h : Owned own free) (hown : own t = some c)
    (hfree' : ∀ i, free' i = false ↔ i ∉ c.indices ∧ free i = false) :
    Owned (update own t none) free' := by
  have hcases : ∀ u d, update own t none u = some d → u ≠ t ∧ own u = some d := by
    intro u d hu
    by_cases hut : u = t
    · subst hut
      rw [update_self] at hu
      cases hu
    · rw [update_of_ne hut] at hu
      exact ⟨hut, hu⟩
  constructor
  · intro u d hu
    exact h.valid u d (hcases u d hu).2
  · intro u v d e i hu hv hid hie
    exact h.apart u v d e i (hcases u d hu).2 (hcases v e hv).2 hid hie
  intro i hi
  rw [hfree', h.used_iff i hi]
  constructor
  · rintro ⟨hic, u, d, hu, hid⟩
    have hut : u ≠ t := by
      rintro rfl
      rw [hown] at hu
      exact hic (some.inj hu ▸ hid)
    exact ⟨u, d, by rw [update_of_ne hut]; exact hu, hid⟩
  rintro ⟨u, d, hu, hid⟩
  obtain ⟨hut, hold⟩ := hcases u d hu
  exact ⟨fun hic => hut (h.apart u t d c i hold hown hid hic), u, d, hold, hid⟩

end Owned
end Redwing.Virtio
