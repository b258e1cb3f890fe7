/-
The kernel's page tables under a system of user address spaces.  The address
spaces work on their own pages only, so whatever they do, the kernel's entries
stay as they are.
-/
import Redwing.SharedOwners
import Redwing.SharedVm
import Redwing.VmSystem

namespace Redwing.Shared

open Vm (Refusals PageSource VmArea EntryPerm SysError userBaseVaddr
  kernelIndexStart kernelIndexEnd indexForVa)
open Walks List

def AreasOk (list : List VmArea) : Prop := ∀ area ∈ list, UserVa area.va.val

/-- How an address space stands during a call that began with the memory
`m`. -/
structure Alive (k : Kernel) (roles : Roles) (m : Phys) (root : Nat)
    (a : AddrSpace) : Prop where
  root_eq : a.vm.root = root
  areas : AreasOk a.vm.areaList
  kept : ∃ roles', Keeps k 1 roles m roles' a.mem

section

variable {k : Kernel} {roles : Roles} {m : Phys} {root id : Nat} {a : AddrSpace}

lemma Alive.put (h : Alive k roles m root a) (hroot : roles root = some (.root id))
    (hstep : ∀ roles', Owned k roles' a.mem → roles' a.vm.root = some (.root id) →
        ∃ roles'', Keeps k 1 roles' a.mem roles'' m') :
    Alive k roles m root (a.put m') := by
  obtain ⟨roles', hkeeps⟩ := h.kept
  have hroot' := hkeeps.keeps root _ hroot (by simp [Role.height])
  obtain ⟨roles'', hnext⟩ := hstep roles' hkeeps.owned (h.root_eq ▸ hroot')
  exact ⟨h.root_eq, h.areas, roles'', hkeeps.trans hnext⟩

lemma Alive.setSize (h : Alive k roles m root a) (size : Nat) :
    Alive k roles m root (a.setSize size) :=
  ⟨h.root_eq, h.areas, h.kept⟩

variable {list : List VmArea}

lemma Alive.setAreas (h : Alive k roles m root a)
    (hlist : AreasOk list) : Alive k roles m root (a.setAreas list) :=
  ⟨h.root_eq, hlist, h.kept⟩

lemma userVa_base (h : size ≤ Vm.userEndVaddr) : UserVa (userBaseVaddr + size) := by
  rw [Vm.userEndVaddr] at h
  rw [UserVa, userBaseVaddr, Vm.vaLimit]
  omega

lemma AreasOk.addArea (h : AreasOk list) (harea : UserVa area.va.val)
    (hadd : Vm.addArea list area = some list') : AreasOk list' := by
  rw [Vm.addArea] at hadd
  split at hadd
  · cases hadd
  cases hadd
  intro x hx
  rcases mem_append.mp hx with hx | hx
  · exact h x hx
  · rw [mem_singleton] at hx
    exact hx ▸ harea

section

variable (h : Alive k roles m root a) (hroot : roles root = some (.root id))

include h hroot

lemma Alive.unmapArea (harea : UserVa area.va.val) : Alive k roles m root (a.unmapArea area) :=
  h.put hroot fun _ hm hr => vunmap_keeps hm hr harea

lemma Alive.uvalloc (hrun : uvalloc src refused newSz perm isLazy a = some out) :
    Alive k roles m root out.1 := by
  rw [Shared.uvalloc] at hrun
  dsimp only at hrun
  split at hrun
  · cases hrun
    exact h
  rename_i hend
  have hnew := Nat.not_lt.mp hend
  split at hrun
  · cases hrun
    exact h
  split at hrun
  · rename_i hgrows
    split at hrun
    · split at hrun
      · cases hrun
        exact h.setSize newSz
      · cases hrun
    split at hrun
    · cases hrun
    all_goals
      rename_i hmap
      cases hrun
      have hput := h.put hroot fun _ hm hr =>
        vmap_keeps hm hr (userVa_base (hgrows.le.trans hnew)) hmap
    · exact hput.setSize newSz
    · exact hput
  · cases hrun
    exact (h.put hroot fun _ hm hr => vunmap_keeps hm hr (userVa_base hnew)).setSize newSz

lemma Alive.brk (hrun : brk src refused newBrkPtr a = some out) : Alive k roles m root out.1 := by
  rw [Shared.brk] at hrun
  split at hrun
  · cases hrun
    exact h
  split at hrun
  · cases hrun
    exact h
  split at hrun
  · cases hrun
  all_goals
    rename_i hgrow
    cases hrun
    exact h.uvalloc hroot hgrow

lemma Alive.allocSegment (hva : UserVa va.val)
    (hrun : allocSegment src refused va size perm a = some out) : Alive k roles m root out.1 := by
  rw [Shared.allocSegment] at hrun
  split at hrun
  · cases hrun
  all_goals
    rename_i hmap
    have hput := h.put hroot fun _ hm hr => vmap_keeps hm hr hva hmap
  · cases hrun
    exact hput
  split at hrun
  · cases hrun
  · rename_i hadd
    cases hrun
    exact hput.setAreas (h.areas.addArea hva hadd)

lemma Alive.deallocSegment (va : Vm.PageAligned) :
    Alive k roles m root (deallocSegment va a).1 := by
  rw [Shared.deallocSegment, Vm.removeByVa]
  cases hfind : a.vm.areaList.find? fun area => area.contains va.val with
  | none => exact h
  | some area =>
    have harea := h.areas area (mem_of_find?_eq_some hfind)
    exact (h.setAreas fun x hx => h.areas x (mem_of_mem_eraseP hx)).unmapArea hroot harea

lemma Alive.deallocAllSegments : Alive k roles m root (deallocAllSegments a) := by
  have hareas := h.areas
  have hnone : Alive k roles m root (a.setAreas []) := h.setAreas fun x hx => (not_mem_nil hx).elim
  rw [Shared.deallocAllSegments]
  generalize a.setAreas [] = b at hnone
  generalize a.vm.areaList = list at hareas
  induction list generalizing b with
  | nil => exact hnone
  | cons area list ih =>
    exact ih _ (hnone.unmapArea hroot (hareas area (mem_cons_self ..)))
      fun x hx => hareas x (mem_cons_of_mem _ hx)

lemma Alive.copyContentFrom (hstart : UserVa startVa)
    (hrun : copyContentFrom src refused startVa size sourceRoot a = some out) :
    Alive k roles m root out.1 := by
  refine tryEach_invariant (fun entry _ b next hb hbody => ?_) h hrun
  dsimp only at hbody
  split at hbody
  · cases hbody
  all_goals
    rename_i hpage
    cases hbody
    refine hb.put hroot fun roles' hm hr => ?_
    obtain ⟨roles'', hkeeps, hdst⟩ := vmapPage_keeps hm hr hpage
  · exact ⟨roles'', hkeeps.owned.write (hdst _ rfl) (fun _ _ => rfl)
      hkeeps.owned.once (List.Subset.refl _) rfl, hkeeps.keeps, hkeeps.spare⟩
  obtain ⟨roles₃, hkeeps₃⟩ := vunmap_keeps hkeeps.owned
    (hkeeps.keeps _ _ hr (by simp [Role.height])) hstart
  exact ⟨roles₃, hkeeps.trans hkeeps₃⟩

lemma Alive.copySegments (hlist : AreasOk list)
    (hrun : tryEach (copySegment src refused sourceRoot) list a = some out) :
    Alive k roles m root out.1 := by
  refine tryEach_invariant (fun area harea b next hb hbody => ?_) h hrun
  rw [copySegment] at hbody
  split at hbody
  · cases hbody
  all_goals
    rename_i hcopy
    have hcopied := hb.copyContentFrom hroot (hlist area harea) hcopy
  · cases hbody
    exact hcopied
  split at hbody
  · cases hbody
  · rename_i hadd
    cases hbody
    exact hcopied.setAreas (hcopied.areas.addArea (hlist area harea) hadd)

lemma Alive.copyUserContentFrom (hlist : AreasOk source.areaList)
    (hrun : copyUserContentFrom src refused source a = some out) : Alive k roles m root out.1 := by
  rw [Shared.copyUserContentFrom] at hrun
  split at hrun
  · cases hrun
  all_goals
    rename_i hempty
    have h₁ := (h.deallocAllSegments hroot).uvalloc hroot hempty
  · cases hrun
    exact h₁
  split at hrun
  · cases hrun
  all_goals
    rename_i hsegments
    have h₂ := h₁.copySegments hroot hlist hsegments
  · cases hrun
    exact h₂
  split at hrun
  · cases hrun
  all_goals
    rename_i hcopy
    have h₃ := h₂.copyContentFrom hroot (userVa_base (Nat.zero_le _)) hcopy
    cases hrun
  · exact h₃
  · exact h₃.setSize source.userSpaceSize

lemma Alive.onPageFault (hrun : onPageFault src refused addr a = some out) :
    Alive k roles m root out.1 := by
  rw [Shared.onPageFault] at hrun
  split at hrun
  · dsimp only at hrun
    split at hrun
    · cases hrun
    · cases hrun
      exact h
    split at hrun
    · cases hrun
    all_goals
      rename_i hpage
      cases hrun
      refine h.put hroot fun _ hm hr => ?_
      obtain ⟨roles', hkeeps, -⟩ := vmapPage_keeps hm hr hpage
      exact ⟨roles', hkeeps⟩
  · cases hrun
    exact h

lemma Alive.dropVm :
    ∃ roles', Owned k roles' (dropVm a) ∧ ∀ p id', p ≠ root → roles p = some (.root id') →
        roles' p = some (.root id') := by
  let b := Shared.deallocAllSegments a
  let c := b.put (vunmap b.vm.root userBaseVaddr (Vm.pgRoundUp b.vm.userSpaceSize).val b.mem)
  have hempty : Alive k roles m root c :=
    (h.deallocAllSegments hroot).put hroot fun _ hm hr =>
      vunmap_keeps hm hr (userVa_base (Nat.zero_le _))
  obtain ⟨roles₁, hkeeps⟩ := hempty.kept
  have hroot₁ := hkeeps.keeps root _ hroot (by simp [Role.height])
  obtain ⟨roles₂, hclear⟩ := clear_keeps hkeeps.owned hroot₁
  obtain ⟨howned, hothers⟩ := ((hkeeps.mono (by omega)).trans hclear).freeRoot hroot
  refine ⟨_, ?_, hothers⟩
  change Owned k _ ((clear c.vm.root c.mem).freePage c.vm.root)
  rw [hempty.root_eq]
  exact howned

end
end

/-! ### The system -/

def System.kernel (s₀ : System) : Kernel where
  root := s₀.kernelRoot
  table := KernelTable s₀.mem.tables s₀.kernelRoot
  entries := s₀.mem.tables

def System.Holds (s₀ s : System) : Prop :=
  ∃ roles, s.kernelRoot = s₀.kernelRoot ∧ Owned s₀.kernel roles s.mem ∧
    (∀ id vm, s.vms id = some vm → roles vm.root = some (.root id) ∧ AreasOk vm.areaList) ∧
    ∀ id, s.slots ≤ id → s.vms id = none

namespace System.Holds

variable {s₀ s s' : System}

lemma start (h : s₀.Start) : s₀.Holds s₀ := by
  refine ⟨fun _ => none, rfl, ⟨h.once, fun p hp => ?_, ?_, ?_, ?_⟩, ?_, ?_⟩
  · refine ⟨rfl, rfl, h.kernel p hp, ?_⟩
    rw [h.touched]
    exact not_mem_nil
  · exact fun _ _ hnone => by cases hnone
  · exact fun _ _ _ hnone => by cases hnone
  · exact fun _ _ _ hnone => by cases hnone
  · intro id vm hvm
    rw [h.vms] at hvm
    cases hvm
  · intro id _
    rw [h.vms]

lemma update {roles roles' : Roles} {id n : Nat} {vm : Option VMInner} {m' : Phys}
    (hkernel : s.kernelRoot = s₀.kernelRoot)
    (hvms : ∀ id vm, s.vms id = some vm → roles vm.root = some (.root id) ∧ AreasOk vm.areaList)
    (hslots : ∀ id, s.slots ≤ id → s.vms id = none) (howned : Owned s₀.kernel roles' m')
    (hothers : ∀ p id', id' ≠ id → roles p = some (.root id') → roles' p = some (.root id'))
    (hself : ∀ vm' ∈ vm, roles' vm'.root = some (.root id) ∧ AreasOk vm'.areaList) (hid : id < n)
    (hn : s.slots ≤ n) : s₀.Holds { s.setVm id vm m' with slots := n } := by
  refine ⟨roles', hkernel, howned, fun id' vm' hvm' => ?_, fun id' hid' => ?_⟩
  · by_cases heq : id' = id
    · subst heq
      have hnew : Function.update s.vms id' vm id' = some vm' := hvm'
      rw [Function.update_self] at hnew
      exact hself vm' hnew
    · have hold : s.vms id' = some vm' := (Function.update_of_ne heq _ _).symm.trans hvm'
      exact ⟨hothers _ id' heq (hvms id' vm' hold).1, (hvms id' vm' hold).2⟩
  have hne : id' ≠ id := Nat.ne_of_gt (Nat.lt_of_lt_of_le hid hid')
  exact (Function.update_of_ne hne _ _).trans (hslots id' (Nat.le_trans hn hid'))

variable {vm : VMInner}

lemma lt_slots {id : Nat} (hslots : ∀ id, s.slots ≤ id → s.vms id = none)
    (hvm : s.vms id = some vm) : id < s.slots := by
  by_contra hge
  rw [hslots id (Nat.not_lt.mp hge)] at hvm
  cases hvm

lemma onVm (h : s₀.Holds s) {id : Nat} {α : Type}
    {op : AddrSpace → Option (AddrSpace × α)}
    (hop : ∀ roles m root a out, roles root = some (.root id) →
      Alive s₀.kernel roles m root a → op a = some out → Alive s₀.kernel roles m root out.1)
    (hstep : s.onVm id op = some s') : s₀.Holds s' := by
  obtain ⟨roles, hkernel, howned, hvms, hslots⟩ := h
  rw [System.onVm] at hstep
  split at hstep
  · cases hstep
  rename_i vm hvm
  split at hstep
  · cases hstep
  rename_i a result hrun
  cases hstep
  obtain ⟨hroot, hareas⟩ := hvms id vm hvm
  have halive := hop roles s.mem vm.root ⟨vm, s.mem⟩ _ hroot ⟨rfl, hareas, roles, .refl howned⟩ hrun
  obtain ⟨roles', hkeeps⟩ := halive.kept
  refine update hkernel hvms hslots hkeeps.owned
    (fun p id' _ hp => hkeeps.keeps p _ hp (by simp [Role.height]))
    (fun vm' hvm' => ?_) (lt_slots hslots hvm) (Nat.le_refl _)
  cases hvm'
  refine ⟨?_, halive.areas⟩
  rw [halive.root_eq]
  exact hkeeps.keeps _ _ hroot (by simp [Role.height])

lemma dropVm (h : s₀.Holds s) {id : Nat} (hvm : s.vms id = some vm) :
    s₀.Holds (s.setVm id none (Shared.dropVm ⟨vm, s.mem⟩)) := by
  obtain ⟨roles, hkernel, howned, hvms, hslots⟩ := h
  obtain ⟨hroot, hareas⟩ := hvms id vm hvm
  have halive : Alive s₀.kernel roles s.mem vm.root ⟨vm, s.mem⟩ :=
    ⟨rfl, hareas, roles, .refl howned⟩
  obtain ⟨roles', howned', hothers⟩ := halive.dropVm hroot
  generalize Shared.dropVm ⟨vm, s.mem⟩ = m' at howned'
  refine update hkernel hvms hslots howned' (fun p id' hne hp => ?_)
    (fun vm' hvm' => by cases hvm') (lt_slots hslots hvm) (Nat.le_refl _)
  refine hothers p id' ?_ hp
  rintro rfl
  exact hne (Role.root.inj (Option.some.inj (hp.symm.trans hroot)))

lemma withKernelVm (h : s₀.Holds s) {refused : Bool} {a : AddrSpace}
    (hrun : withKernelVm src s.kernelRoot refused s.mem = some a) : s₀.Holds
      { s.setVm s.slots (some a.vm) a.mem with slots := s.slots + 1 } := by
  obtain ⟨roles, hkernel, howned, hvms, hslots⟩ := h
  rw [Shared.withKernelVm] at hrun
  split at hrun
  · cases hrun
  rename_i root m halloc
  cases hrun
  have htaken := howned.take halloc
  have hm := (htaken.keeps 0).owned
  have hne : ∀ q, q ≠ root ∨ roles q ≠ none → q ≠ root := by
    rintro q (hne | hrole) rfl
    · exact hne rfl
    · exact hrole htaken.new
  have hcopied : Owned s₀.kernel roles (copyFromKernel root s.kernelRoot m) :=
    hm.write htaken.kernel (fun q hq => Function.update_of_ne (hne q hq) _ _) hm.once
      (List.Subset.refl _) rfl
  have hgiven : Owned s₀.kernel (Function.update roles root (some (.root s.slots)))
      (copyFromKernel root s.kernelRoot m) :=
    hcopied.give htaken.new htaken.issued htaken.kernel ?_ ?_
  · refine update hkernel hvms hslots hgiven (fun p id' _ hp => ?_)
      (fun vm' hvm' => ?_) (Nat.lt_succ_self _) (Nat.le_succ _)
    · rw [Function.update_of_ne, hp]
      rintro rfl
      rw [htaken.new] at hp
      cases hp
    · cases hvm'
      exact ⟨Function.update_self .., fun x hx => (not_mem_nil hx).elim⟩
  · intro _ i hi
    simp only [copyFromKernel, Function.update_self]
    rw [if_neg hi, htaken.zero]
    rfl
  intro id i _ hlo hhi
  simp only [copyFromKernel, Function.update_self]
  rw [if_pos ⟨hlo, hhi⟩, hkernel]
  exact congrFun (hm.kernel s₀.kernelRoot .top).2.1 i

lemma store (h : s₀.Holds s) {id va : Nat} {pte : Vm.Pte} (hvm : s.vms id = some vm)
    (hva : 0x200000000 ≤ va) (hget : getEntry s.mem vm.root va = some (some pte))
    (mem : Nat → Nat → BitVec 8) :
    s₀.Holds { s with mem := { s.mem with
      heap := { s.mem.heap with mem }
      touched := pte.physicalAddr :: s.mem.touched } } := by
  obtain ⟨roles, hkernel, howned, hvms, hslots⟩ := h
  obtain ⟨-, _, _, -, -, hpage⟩ := getEntry_page howned (hvms id vm hvm).1 hva hget
  refine ⟨roles, hkernel, howned.write (fun hk => ?_) (fun _ _ => rfl)
    howned.once (List.Subset.refl _) rfl, hvms, hslots⟩
  exact howned.not_kernel hpage hk

lemma step (h : s₀.Holds s) {action : Action}
    (hstep : Shared.step src s action = some s') : s₀.Holds s' := by
  cases action with
  | withKernelVm refused =>
    simp only [Shared.step] at hstep
    split at hstep
    · cases hstep
      exact h
    rename_i a hrun
    cases hstep
    exact h.withKernelVm hrun
  | uvalloc id newSz perm isLazy turnedDown =>
    exact h.onVm (fun _ _ _ _ _ hroot ha => ha.uvalloc hroot) hstep
  | brk id newBrkPtr turnedDown => exact h.onVm (fun _ _ _ _ _ hroot ha => ha.brk hroot) hstep
  | allocSegment id va size perm turnedDown =>
    simp only [Shared.step] at hstep
    split at hstep
    · rename_i hallowed
      have hva : UserVa va.val := by
        simp only [Vm.segmentAllowed, Vm.isVmapArea, Bool.and_eq_true,
          decide_eq_true_eq] at hallowed
        rw [userBaseVaddr] at hallowed
        rw [UserVa, Vm.vaLimit]
        omega
      exact h.onVm (fun _ _ _ _ _ hroot ha => ha.allocSegment hroot hva) hstep
    · cases hstep
  | deallocSegment id va =>
    simp only [Shared.step] at hstep
    refine h.onVm (fun _ _ _ _ _ hroot ha hrun => ?_) hstep
    cases hrun
    exact ha.deallocSegment hroot va
  | onPageFault id addr turnedDown =>
    exact h.onVm (fun _ _ _ _ _ hroot ha => ha.onPageFault hroot) hstep
  | copyUserContentFrom id source turnedDown =>
    simp only [Shared.step] at hstep
    split at hstep
    · cases hstep
    split at hstep
    · cases hstep
    rename_i sourceVm hsource
    have hvms := h
    obtain ⟨_, -, -, hvms, -⟩ := hvms
    exact h.onVm (fun _ _ _ _ _ hroot ha =>
      ha.copyUserContentFrom hroot (hvms source sourceVm hsource).2) hstep
  | store id va byte =>
    simp only [Shared.step] at hstep
    split at hstep
    · cases hstep
    rename_i vm hvm
    split at hstep
    · rename_i hva
      split at hstep
      · rename_i pte hget
        cases hstep
        exact h.store hvm hva hget _
      · cases hstep
    · cases hstep
  | drop id =>
    simp only [Shared.step] at hstep
    split at hstep
    · cases hstep
    rename_i vm hvm
    cases hstep
    exact h.dropVm hvm

end System.Holds

/-- Whatever the address spaces do that share the kernel's entries, and when
they are dropped: the tables of the kernel stay as they were, they are not
written to and not given back, and every live address space still has the
kernel's top-level entries. -/
theorem kernel_mappings_untouched (src : PageSource) {s₀ s : System} {actions : List Action}
    (hstart : s₀.Start) (hrun : (machine src).run s₀ actions = some s) :
    (∀ p, KernelTable s₀.mem.tables s₀.kernelRoot p →
      s.mem.tables p = s₀.mem.tables p ∧ p ∈ s.mem.heap.issued ∧ p ∉ s.mem.touched) ∧
    ∀ id vm, s.vms id = some vm → ∀ i, Vm.kernelIndexStart ≤ i → i ≤ Vm.kernelIndexEnd →
        s.mem.tables vm.root i = s₀.mem.tables s₀.kernelRoot i := by
  have hinv := Machine.run_invariant (P := s₀.Holds)
    (fun s action s' h hstep => h.step hstep) (.start hstart) hrun
  obtain ⟨roles, hroot, h, hvms, -⟩ := hinv
  refine ⟨fun p hp => (h.kernel p hp).2, fun id vm hvm i hlo hhi => ?_⟩
  exact h.top vm.root id i (hvms id vm hvm).1 hlo hhi

def kernelBoot : System where
  kernelRoot := 0x1000
  mem :=
    { tables := fun p i =>
        if p = 0x1000 ∧ i = 2 then .makePde 0x2000
        else if p = 0x2000 ∧ i = 0 then .makePde 0x3000
        else .zero
      heap :=
        { issued := [0x3000, 0x2000, 0x1000]
          clock := 0
          mem := fun _ _ => 0
          badFree := false }
      touched := [] }
  slots := 0
  vms := fun _ => none

lemma kernelBoot_start : kernelBoot.Start := by
  have htop : ∀ i, (kernelBoot.mem.tables 0x1000 i).isValid = true →
      kernelBoot.mem.tables 0x1000 i = .makePde 0x2000 := by
    intro i hvalid
    by_cases hi : i = 2
    · exact if_pos ⟨rfl, hi⟩
    · simp [kernelBoot, hi, Vm.Pte.zero, Vm.Pte.isValid, Vm.EntryPerm.empty] at hvalid
  have hmid : ∀ i, (kernelBoot.mem.tables 0x2000 i).isValid = true →
      kernelBoot.mem.tables 0x2000 i = .makePde 0x3000 := by
    intro i hvalid
    by_cases hi : i = 0
    · simp [kernelBoot, hi]
    · simp [kernelBoot, hi, Vm.Pte.zero, Vm.Pte.isValid, Vm.EntryPerm.empty] at hvalid
  refine ⟨?_, by decide, rfl, rfl, rfl, rfl⟩
  intro p hp
  cases hp with
  | top => decide
  | mid i _ hvalid =>
    change (kernelBoot.mem.tables 0x1000 i).physicalAddr ∈ _
    rw [htop i hvalid]
    decide
  | low i j _ hvalid _ hvalid' =>
    change (kernelBoot.mem.tables (kernelBoot.mem.tables 0x1000 i).physicalAddr j).physicalAddr ∈ _
    change (kernelBoot.mem.tables (kernelBoot.mem.tables 0x1000 i).physicalAddr j).isValid = true
      at hvalid'
    rw [htop i hvalid] at hvalid' ⊢
    rw [show (kernelBoot.mem.tables (Vm.Pte.makePde 0x2000).physicalAddr j) =
      _ from hmid j hvalid']
    decide

/-- A program is loaded, grows its heap and touches it; it forks, the child
writes to the page, and the parent exits. -/
def forkTrace : List Action :=
  [.withKernelVm false, .allocSegment 0 ⟨0x200080000, by decide⟩ ⟨0x1000, by decide⟩ .withRw none,
    .brk 0 0x300001000 none, .onPageFault 0 0x300000010 none,
    .withKernelVm false, .copyUserContentFrom 1 0 none,
    .store 1 0x300000010 7, .drop 0]

set_option maxRecDepth 20000 in
lemma forkTrace_runs : ((machine Vm.nextPage).run kernelBoot forkTrace).map
    (fun s => ((s.vms 0).isSome, (s.vms 1).map (·.root))) = some (false, some 0xB000) := by
  decide +kernel

theorem kernel_mappings_untouched_fork : ∃ s vm, kernelBoot.Start ∧
      (machine Vm.nextPage).run kernelBoot forkTrace = some s ∧
      s.vms 0 = none ∧ s.vms 1 = some vm ∧
      s.mem.tables 0x2000 = kernelBoot.mem.tables 0x2000 ∧
      0x3000 ∈ s.mem.heap.issued ∧ 0x3000 ∉ s.mem.touched ∧
      s.mem.tables vm.root 2 = .makePde 0x2000 := by
  obtain ⟨s, hrun, hend⟩ := Option.map_eq_some_iff.mp forkTrace_runs
  obtain ⟨hgone, hvm⟩ := Prod.mk.inj hend
  obtain ⟨vm, hvm, -⟩ := Option.map_eq_some_iff.mp hvm
  obtain ⟨htables, htop⟩ := kernel_mappings_untouched Vm.nextPage kernelBoot_start hrun
  have hmid : KernelTable kernelBoot.mem.tables kernelBoot.kernelRoot 0x2000 :=
    .mid 2 (by decide) (by decide)
  have hlow : KernelTable kernelBoot.mem.tables kernelBoot.kernelRoot 0x3000 :=
    .low 2 0 (by decide) (by decide) (by decide) (by decide)
  refine ⟨s, vm, kernelBoot_start, hrun, ?_, hvm, (htables _ hmid).1,
    (htables _ hlow).2.1, (htables _ hlow).2.2, ?_⟩
  · simpa using hgone
  · exact htop 1 vm hvm 2 (by decide) (by decide)

lemma page_eq_of_indexes (hva : UserVa va) (hva' : UserVa va')
    (hlow : indexForVa 0 va = indexForVa 0 va') (hmid : indexForVa 1 va = indexForVa 1 va')
    (htop : indexForVa 2 va = indexForVa 2 va') : va / 4096 = va' / 4096 := by
  simp only [indexForVa, Vm.shift, Nat.shiftRight_eq_div_pow, show 511 = 2 ^ 9 - 1 from rfl,
    Nat.and_two_pow_sub_one_eq_mod] at hlow hmid htop
  rw [UserVa, Vm.vaLimit] at hva hva'
  omega

def System.Maps (s : System) (id va page : Nat) : Prop :=
  ∃ vm pte, s.vms id = some vm ∧ 0x200000000 ≤ va ∧
    getEntry s.mem vm.root va = some (some pte) ∧ pte.physicalAddr = page

/-- Processes are isolated: a page under a user address is in use, is no table
of the kernel, and is under no other page of any address space. -/
theorem user_pages_private (src : PageSource) {s₀ s : System} {actions : List Action}
    (hstart : s₀.Start) (hrun : (machine src).run s₀ actions = some s) (h : s.Maps pid va page) :
    page ∈ s.mem.heap.issued ∧ ¬ KernelTable s₀.mem.tables s₀.kernelRoot page ∧
      ∀ pid' va', s.Maps pid' va' page → pid' = pid ∧ va' / 4096 = va / 4096 := by
  obtain ⟨roles, -, howned, hvms, -⟩ := Machine.run_invariant (P := s₀.Holds)
    (fun s action s' h hstep => h.step hstep) (.start hstart) hrun
  obtain ⟨vm, pte, hvm, hva, hget, rfl⟩ := h
  have hroot := (hvms _ vm hvm).1
  obtain ⟨huser, mid, low, hmid, hlow, hpage⟩ := getEntry_page howned hroot hva hget
  refine ⟨howned.issued _ _ hpage, howned.not_kernel hpage, ?_⟩
  rintro pid' va' ⟨vm', pte', hvm', hva', hget', heq⟩
  have hroot' := (hvms _ vm' hvm').1
  obtain ⟨huser', mid', low', hmid', hlow', hpage'⟩ := getEntry_page howned hroot' hva' hget'
  -- the way up from a page is unique
  rw [heq] at hpage'
  have hpath := page_eq_of_indexes huser' huser
  grind

set_option maxRecDepth 20000 in
theorem user_pages_private_fork : ∃ s page page', page' ≠ page ∧
    System.Maps s 0 0x300000010 page ∧ System.Maps s 1 0x300000010 page' := by
  have hruns : ((machine Vm.nextPage).run kernelBoot (forkTrace.take 7)).any (fun s =>
      [0, 1].all fun id => (s.vms id).any fun vm =>
        (getEntry s.mem vm.root 0x300000010).join.isSome) = true := by
    decide +kernel
  simp only [Option.any_eq_true, all_cons, all_nil, Bool.and_true, Bool.and_eq_true,
    Option.isSome_iff_exists, Option.join_eq_some_iff] at hruns
  obtain ⟨s, hrun, ⟨vm, hvm, pte, hget⟩, vm', hvm', pte', hget'⟩ := hruns
  have h := user_pages_private Vm.nextPage kernelBoot_start hrun
    ⟨vm, pte, hvm, by decide, hget, rfl⟩
  refine ⟨s, _, _, fun heq => ?_, ⟨vm, pte, hvm, by decide, hget, rfl⟩,
    ⟨vm', pte', hvm', by decide, hget', rfl⟩⟩
  cases (h.2.2 1 _ ⟨vm', pte', hvm', by decide, hget', heq⟩).1

end Redwing.Shared
