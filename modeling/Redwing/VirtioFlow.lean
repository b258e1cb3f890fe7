/-
The way of a request through the rings.  The heads in the available ring, those
the device works on and those in the used ring are, each once, the submitted
requests whose condition is still false.
-/
import Redwing.RingWindow
import Redwing.VirtioWaits

namespace Redwing.Virtio

open RingWindow Function List

/-! ### Heads under way -/

/-- `heads` lists the submitted chains whose condition is false. -/
structure Tracks (heads : List Nat) (sent : Nat → Option Chain)
    (cond : Nat → Bool) : Prop where
  nodup : heads.Nodup
  mem_iff : ∀ head, head ∈ heads ↔ cond head = false ∧ ∃ t c, sent t = some c ∧ c.idx0 = head

namespace Tracks

variable {heads heads' : List Nat} {sent : Nat → Option Chain} {cond : Nat → Bool} {c : Chain}

lemma perm (h : Tracks heads sent cond) (hperm : heads.Perm heads') : Tracks heads' sent cond :=
  ⟨hperm.nodup_iff.mp h.nodup, fun head => hperm.mem_iff.symm.trans (h.mem_iff head)⟩

lemma add (h : Tracks heads sent cond) (hnone : sent t = none)
    (hnew : ∀ u d, sent u = some d → d.idx0 ≠ c.idx0) :
    Tracks (c.idx0 :: heads) (update sent t (some c)) (update cond c.idx0 false) := by
  have hnot : c.idx0 ∉ heads := by
    intro hmem
    obtain ⟨-, u, d, hu, heq⟩ := (h.mem_iff _).mp hmem
    exact hnew u d hu heq
  refine ⟨nodup_cons.mpr ⟨hnot, h.nodup⟩, fun head => ?_⟩
  by_cases hhead : head = c.idx0
  · subst hhead
    refine iff_of_true mem_cons_self ⟨update_self .., t, c, ?_, rfl⟩
    exact update_self ..
  rw [mem_cons, or_iff_right hhead, h.mem_iff, update_of_ne hhead]
  apply and_congr_right
  intro _
  constructor
  · rintro ⟨u, d, hu, heq⟩
    have hut : u ≠ t := by
      rintro rfl
      cases hnone.symm.trans hu
    exact ⟨u, d, (update_of_ne hut ..).trans hu, heq⟩
  rintro ⟨u, d, hu, heq⟩
  by_cases hut : u = t
  · subst hut
    rw [update_self, Option.some.injEq] at hu
    exact absurd (hu ▸ heq.symm) hhead
  · rw [update_of_ne hut] at hu
    exact ⟨u, d, hu, heq⟩

lemma notify {head : Nat} (h : Tracks (head :: heads) sent cond) :
    Tracks heads sent (update cond head true) := by
  obtain ⟨hnot, hnodup⟩ := nodup_cons.mp h.nodup
  refine ⟨hnodup, fun other => ?_⟩
  by_cases heq : other = head
  · subst heq
    refine iff_of_false hnot fun hcond => ?_
    cases (update_self ..).symm.trans hcond.1
  · rw [update_of_ne heq, ← h.mem_iff, mem_cons, or_iff_right heq]

lemma forget (h : Tracks heads sent cond) (hsent : sent t = some c) (hcond : cond c.idx0 = true) :
    Tracks heads (update sent t none) cond := by
  refine ⟨h.nodup, fun head => (h.mem_iff head).trans ?_⟩
  apply and_congr_right
  intro hfalse
  constructor
  · rintro ⟨u, d, hu, heq⟩
    have hut : u ≠ t := by
      rintro rfl
      cases hsent.symm.trans hu
      rw [heq, hfalse] at hcond
      cases hcond
    exact ⟨u, d, (update_of_ne hut ..).trans hu, heq⟩
  rintro ⟨u, d, hu, heq⟩
  by_cases hut : u = t
  · subst hut
    rw [update_self] at hu
    cases hu
  · rw [update_of_ne hut] at hu
    exact ⟨u, d, hu, heq⟩

end Tracks

/-! ### The rings -/

/-- The entry of the used ring that the handler is about to leave behind. -/
def Intr.handled : Intr → List Nat
  | .notified id => [id]
  | _ => []

/-- `avail` and `used` are the entries of the rings that the device and the
handler have not taken. -/
structure Flow (s : Sys) (avail used : List Nat) : Prop where
  availRing : Holds ringSize indexModulus s.shared.availRing s.fetched s.shared.availIdx avail
  usedRing : Holds ringSize indexModulus s.shared.usedRing s.shared.usedIdx
    s.shared.usedRingIdx (s.intr.handled ++ used)
  tracks : Tracks (avail ++ s.serving ++ used) s.sentOf s.shared.cond
  next : ∀ id, s.intr = .notify id → used.head? = some id
  owner : ∀ id, s.intr = .notified id → ∃ t c, s.sentOf t = some c ∧ c.idx0 = id
  completed : ∀ t c, s.sentOf t = some c →
    (s.completed c.idx0 = false ↔ c.idx0 ∈ avail ++ s.serving)
  fetched_lt : s.fetched < indexModulus
  usedIdx_lt : s.shared.usedIdx < indexModulus

/-- The heads that a step puts into the available ring, that the device reads
there, that it puts into the used ring, and that the handler is done with. -/
def Sys.sends (s : Sys) : Act → List Nat
  | .task t =>
    match s.tasks t with
    | .send _ c => [c.idx0]
    | _ => []
  | _ => []

def Sys.reads (s : Sys) : Act → List Nat
  | .fetch => [s.shared.availRing (s.fetched % ringSize)]
  | _ => []

def Act.returns : Act → List Nat
  | .complete head _ => [head]
  | _ => []

def Sys.handles (s : Sys) : Act → List Nat
  | .intr => s.intr.handled
  | _ => []

/-- What a step does to the entries that are not taken. -/
structure Passes (s : Sys) (a : Act) (s' : Sys)
    (avail used avail' used' : List Nat) : Prop where
  avail : s.reads a ++ avail' = avail ++ s.sends a
  used : s.handles a ++ (s'.intr.handled ++ used') = s.intr.handled ++ used ++ a.returns
  fetched : s'.fetched = (s.fetched + (s.reads a).length) % indexModulus
  usedIdx : s'.shared.usedIdx = (s.shared.usedIdx + (s.handles a).length) % indexModulus
  serving : s'.serving.length + a.returns.length = s.serving.length + (s.reads a).length

lemma ringSize_dvd : ringSize ∣ indexModulus := ⟨2 ^ 13, rfl⟩

lemma length_le_ringSize {heads : List Nat} (hnodup : heads.Nodup)
    (hlt : ∀ head ∈ heads, head < ringSize) : heads.length ≤ ringSize := by
  have hsub : heads ⊆ range ringSize := fun head hmem => mem_range.mpr (hlt head hmem)
  simpa using (hnodup.subperm hsub).length_le

namespace Flow

variable {s : Sys} {avail used : List Nat}

section

variable (h : Flow s avail used)

include h

lemma mem_lt (hown : s.Owns) {head : Nat}
    (hmem : head ∈ avail ++ s.serving ++ used) : head < ringSize := by
  obtain ⟨-, t, c, ht, rfl⟩ := (h.tracks.mem_iff _).mp hmem
  exact (hown.owned.valid t c (Sys.chainOf_of_sentOf ht)).lt _ c.idx0_mem

lemma length_le (hown : s.Owns) (hwaits : s.Waits) :
    s.intr.handled.length + (avail ++ s.serving ++ used).length ≤ ringSize := by
  rw [← length_append]
  apply length_le_ringSize
  · cases hintr : s.intr with
    | notified id =>
      refine nodup_cons.mpr ⟨fun hmem => ?_, h.tracks.nodup⟩
      have hcond := ((h.tracks.mem_iff _).mp hmem).1
      cases (hwaits.notified id hintr).1.symm.trans hcond
    | away | loop | notify => exact h.tracks.nodup
  intro head hmem
  rcases mem_append.mp hmem with hhandled | hmem
  · cases hintr : s.intr with
    | notified id =>
      rw [hintr] at hhandled
      obtain ⟨t, c, ht, hid⟩ := h.owner id hintr
      rw [mem_singleton.mp hhandled, ← hid]
      exact (hown.owned.valid t c (Sys.chainOf_of_sentOf ht)).lt _ c.idx0_mem
    | away | loop | notify => rw [hintr] at hhandled; cases hhandled
  · exact h.mem_lt hown hmem

lemma congr (hshared : s'.shared.availRing =
      s.shared.availRing ∧ s'.shared.availIdx = s.shared.availIdx ∧
      s'.shared.usedRing = s.shared.usedRing ∧
      s'.shared.usedRingIdx = s.shared.usedRingIdx ∧
      s'.shared.usedIdx = s.shared.usedIdx ∧ s'.shared.cond = s.shared.cond)
    (hdevice : s'.fetched = s.fetched ∧ s'.serving = s.serving ∧ s'.completed = s.completed)
    (hintr : s'.intr = s.intr) (hsent : s'.sentOf = s.sentOf) :
    Flow s' avail used := by
  obtain ⟨h1, h2, h3, h4, h5, h6⟩ := hshared
  obtain ⟨hfetched, hserving, hcompleted⟩ := hdevice
  constructor
  · rw [h1, h2, hfetched]; exact h.availRing
  · rw [h3, h4, h5, hintr]; exact h.usedRing
  · rw [hsent, h6, hserving]; exact h.tracks
  · rw [hintr]; exact h.next
  · rw [hintr, hsent]; exact h.owner
  · rw [hsent, hcompleted, hserving]; exact h.completed
  · rw [hfetched]; exact h.fetched_lt
  · rw [h5]; exact h.usedIdx_lt

lemma goto_same (hsent : (s.tasks t).sent = p.sent) : Flow (s.goto t p) avail used :=
  h.congr ⟨rfl, rfl, rfl, rfl, rfl, rfl⟩ ⟨rfl, rfl, rfl⟩ rfl (Sys.sentOf_goto_same hsent)

lemma send (hown : s.Owns) (hlocked : s.Locked) (hpc : s.tasks t = .send r c)
    (hlock : s.lock = none) :
    Flow { s.goto t (.test c) with
        shared := s.shared.sendRwCommand c r
        completed := update s.completed c.idx0 false }
      (avail ++ [c.idx0]) used := by
  have hchain : s.chainOf t = some c := by rw [Sys.chainOf, hpc]; rfl
  have hnone : s.sentOf t = none := by rw [Sys.sentOf, hpc]; rfl
  have hlt : c.idx0 < ringSize := (hown.owned.valid t c hchain).lt _ c.idx0_mem
  have hnew : ∀ u d, s.sentOf u = some d → d.idx0 ≠ c.idx0 := by
    intro u d hu
    have hut : u ≠ t := by
      rintro rfl
      cases hnone.symm.trans hu
    exact hown.head_ne hu hchain hut
  have hsent : (s.goto t (.test c)).sentOf =
      update s.sentOf t (some c) := Sys.sentOf_goto s t (.test c)
  have hadd := h.tracks.add hnone hnew
  have hroom : avail.length < ringSize := by
    have hlen := length_le_ringSize hadd.nodup fun head hmem => by
      rcases mem_cons.mp hmem with rfl | hold
      · exact hlt
      · exact h.mem_lt hown hold
    simp only [length_cons, length_append] at hlen
    omega
  have haway := hlocked.away hlock
  have hsmall : c.idx0 % 2 ^ 16 = c.idx0 := Nat.mod_eq_of_lt (lt_trans hlt (by decide))
  constructor
  · have hring : (s.shared.sendRwCommand c r).availRing = update
        s.shared.availRing (s.shared.availIdx % ringSize) c.idx0 :=
      congrArg (update _ _) hsmall
    exact hring ▸ h.availRing.push ringSize_dvd hroom
  · exact h.usedRing
  · have hmiddle : (avail ++ c.idx0 :: (s.serving ++ used)).Perm
        (c.idx0 :: (avail ++ (s.serving ++ used))) := perm_middle
    have hperm : (c.idx0 :: (avail ++ s.serving ++ used)).Perm
        (avail ++ [c.idx0] ++ s.serving ++ used) := by
      simpa using hmiddle.symm
    exact hsent ▸ hadd.perm hperm
  · intro id hid
    cases haway.symm.trans hid
  · intro id hid
    cases haway.symm.trans hid
  · intro u d hu
    have hu' : (s.goto t (.test c)).sentOf u = some d := hu
    rw [hsent] at hu'
    by_cases hut : u = t
    · subst hut
      rw [update_self, Option.some.injEq] at hu'
      subst hu'
      simp
    rw [update_of_ne hut] at hu'
    have hne := hnew u d hu'
    simpa [update_of_ne hne, hne, Sys.goto] using h.completed u d hu'
  · exact h.fetched_lt
  · exact h.usedIdx_lt

lemma release (hlocked : s.Locked) (hwaits : s.Waits) (hpc : s.tasks t = .release c)
    (hlock : s.lock = none) :
    Flow { s.goto t .signal with shared := { s.shared with free, desc }, lock }
      avail used := by
  have hsent : s.sentOf t = some c := by rw [Sys.sentOf, hpc]; rfl
  have hcond : s.shared.cond c.idx0 = true := by
    have htask := hwaits.task t
    rwa [hpc] at htask
  have hsent' : (s.goto t .signal).sentOf = update s.sentOf t none := Sys.sentOf_goto s t .signal
  have haway := hlocked.away hlock
  constructor
  · exact h.availRing
  · exact h.usedRing
  · exact hsent' ▸ h.tracks.forget hsent hcond
  · exact h.next
  · intro id hid
    cases haway.symm.trans hid
  · intro u d hu
    have hu' : (s.goto t .signal).sentOf u = some d := hu
    rw [hsent'] at hu'
    by_cases hut : u = t
    · subst hut
      rw [update_self] at hu'
      cases hu'
    · rw [update_of_ne hut] at hu'
      exact h.completed u d hu'
  · exact h.fetched_lt
  · exact h.usedIdx_lt

lemma setIntr (hbefore : s.intr.handled = []) (hafter : i.handled = [])
    (hnext : ∀ id, i = .notify id → used.head? = some id) :
    Flow { s with intr := i, lock } avail used := by
  refine ⟨h.availRing, ?_, h.tracks, hnext, ?_, h.completed, h.fetched_lt, h.usedIdx_lt⟩
  · have hused := h.usedRing
    rw [hbefore] at hused
    simp only [hafter]
    exact hused
  intro id hid
  simp only at hid
  rw [hid] at hafter
  cases hafter

lemma length_lt (hown : s.Owns) (hwaits : s.Waits) :
    avail.length < indexModulus ∧ (s.intr.handled ++ used).length < indexModulus := by
  have hlen := h.length_le hown hwaits
  have hsmall : ringSize < indexModulus := by decide
  simp only [length_append] at hlen ⊢
  omega

lemma used_front (hown : s.Owns) (hwaits : s.Waits)
    (hintr : s.intr = .loop) (hne : s.shared.usedRingIdx ≠ s.shared.usedIdx) :
    used.head? = some (s.shared.usedRing (s.shared.usedIdx % ringSize)) := by
  have hring := h.usedRing
  have hlen := (h.length_lt hown hwaits).2
  rw [hintr] at hring hlen
  cases used with
  | nil => exact absurd ((hring.eq_iff h.usedIdx_lt hlen).mpr rfl) hne
  | cons id rest => exact congrArg some (hring.front h.usedIdx_lt).symm

lemma passes_task (hsends : s.sends (.task t) = []) (hintr : s'.intr = s.intr)
    (hfetched : s'.fetched = s.fetched) (hidx : s'.shared.usedIdx = s.shared.usedIdx)
    (hserving : s'.serving = s.serving) : Passes s (.task t) s' avail used avail used := by
  refine ⟨?_, ?_, ?_, ?_, congrArg length hserving⟩
  · rw [hsends]
    exact (append_nil _).symm
  · rw [hintr]
    exact (append_nil _).symm
  · exact hfetched.trans (Nat.mod_eq_of_lt h.fetched_lt).symm
  · exact hidx.trans (Nat.mod_eq_of_lt h.usedIdx_lt).symm

lemma quiet
    (hshared : s'.shared.availRing = s.shared.availRing ∧ s'.shared.availIdx = s.shared.availIdx ∧
      s'.shared.usedRing = s.shared.usedRing ∧
      s'.shared.usedRingIdx = s.shared.usedRingIdx ∧
      s'.shared.usedIdx = s.shared.usedIdx ∧ s'.shared.cond = s.shared.cond)
    (hdevice : s'.fetched = s.fetched ∧ s'.serving = s.serving ∧ s'.completed = s.completed)
    (hintr : s'.intr = s.intr) (hsent : s'.sentOf = s.sentOf)
    (hsends : s.sends (.task t) = []) :
    ∃ avail' used', Flow s' avail' used' ∧ Passes s (.task t) s' avail used avail' used' :=
  ⟨avail, used, h.congr hshared hdevice hintr hsent,
    h.passes_task hsends hintr hdevice.1 hshared.2.2.2.2.1 hdevice.2.1⟩

lemma passes_intr (hhandled : s.intr.handled = []) (hused : s'.intr.handled ++ used' = used)
    (hfetched : s'.fetched = s.fetched) (hidx : s'.shared.usedIdx = s.shared.usedIdx)
    (hserving : s'.serving = s.serving) : Passes s .intr s' avail used avail used' := by
  have hnone : s.handles .intr = [] := hhandled
  refine ⟨(append_nil _).symm, ?_, ?_, ?_, congrArg length hserving⟩
  · rw [hnone, hhandled, hused]
    exact (append_nil _).symm
  · exact hfetched.trans (Nat.mod_eq_of_lt h.fetched_lt).symm
  · rw [hnone]
    exact hidx.trans (Nat.mod_eq_of_lt h.usedIdx_lt).symm

lemma notify {id : Nat} (hintr : s.intr = .notify id) : ∃ rest, used = id :: rest ∧ Flow { s with
    intr := .notified id
    condLock := update s.condLock id (some .intr)
    shared := { s.shared with
      cond := update s.shared.cond id true } } avail rest := by
  have hhead := h.next id hintr
  cases used with
  | nil => cases hhead
  | cons first rest =>
    cases hhead
    refine ⟨rest, rfl, h.availRing, ?_, ?_, ?_, ?_, h.completed, h.fetched_lt, h.usedIdx_lt⟩
    · have hring := h.usedRing
      rw [hintr] at hring
      exact hring
    · exact (h.tracks.perm perm_middle).notify
    · intro id' hid
      cases hid
    intro id' hid
    cases hid
    exact ((h.tracks.mem_iff id).mp (by simp)).2

lemma notified {id : Nat} (hintr : s.intr = .notified id) : Flow { s.signalCond id with
    intr := .loop
    condLock := update s.condLock id none
    shared := { s.shared with
      usedIdx := (s.shared.usedIdx + 1) % indexModulus } } avail used := by
  have hsent := Sys.signalCond_sentOf s id
  have hring := h.usedRing
  rw [hintr] at hring
  refine ⟨h.availRing, hring.pop, hsent.symm ▸ h.tracks, ?_, ?_, ?_, h.fetched_lt,
    Nat.mod_lt _ (by decide)⟩
  · intro id' hid
    cases hid
  · intro id' hid
    cases hid
  · intro t c ht
    exact h.completed t c (hsent ▸ ht)

lemma fetch (hown : s.Owns) (hwaits : s.Waits) (hstep : Step s .fetch s') :
    ∃ rest, avail = s.shared.availRing (s.fetched % ringSize) :: rest ∧ Flow s' rest used := by
  cases hstep
  rename_i hne
  have hlen := (h.length_lt hown hwaits).1
  cases avail with
  | nil => exact absurd ((h.availRing.eq_iff h.fetched_lt hlen).mpr rfl).symm hne
  | cons head rest =>
    have hfront := h.availRing.front h.fetched_lt
    have hperm : (head :: rest ++ s.serving).Perm (rest ++ (s.serving ++ [head])) := by
      simpa using (perm_append_singleton head (rest ++ s.serving)).symm
    refine ⟨rest, by rw [hfront], h.availRing.pop, h.usedRing, ?_, h.next,
      h.owner, ?_, Nat.mod_lt _ (by decide), h.usedIdx_lt⟩
    · simp only [hfront]
      exact h.tracks.perm (hperm.append_right used)
    intro t c ht
    simp only [hfront]
    exact (h.completed t c ht).trans hperm.mem_iff

lemma complete {head : Nat} (hown : s.Owns) (hwaits : s.Waits)
    (hstep : Step s (.complete head status) s') : Flow s' avail (used ++ [head]) := by
  cases hstep
  rename_i hmem
  have hperm : (avail ++ s.serving ++ used).Perm
      (avail ++ s.serving.erase head ++ (used ++ [head])) := by
    have herase := perm_cons_erase hmem
    have hmove : (head :: (s.serving.erase head ++ used)).Perm
        (s.serving.erase head ++ (used ++ [head])) := by
      simpa using (perm_append_singleton head (s.serving.erase head ++ used)).symm
    have htail := (herase.append_right used).trans hmove
    simpa using htail.append_left avail
  have htracks := h.tracks.perm hperm
  constructor
  · exact h.availRing
  · have hlen := h.length_le hown hwaits
    have hpos := length_pos_of_mem hmem
    have hroom : (s.intr.handled ++ used).length < ringSize := by
      simp only [length_append] at hlen ⊢
      omega
    have hpush := h.usedRing.push (x := head) ringSize_dvd hroom
    rwa [append_assoc] at hpush
  · exact htracks
  · intro id hid
    simp [h.next id hid]
  · exact h.owner
  · intro t c ht
    by_cases heq : c.idx0 = head
    · subst heq
      have hnodup := htracks.nodup
      have hnot : c.idx0 ∉ avail ++ s.serving.erase c.idx0 := by
        intro hin
        exact (nodup_append.mp hnodup).2.2 c.idx0 hin c.idx0 (by simp) rfl
      simp only [update_self, Bool.true_eq_false, false_iff]
      exact hnot
    rw [mem_append, mem_erase_of_ne heq, ← mem_append]
    simp only [update_of_ne heq]
    exact h.completed t c ht
  · exact h.fetched_lt
  · exact h.usedIdx_lt

end
end Flow
end Redwing.Virtio
