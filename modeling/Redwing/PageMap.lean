/-
`map`, `try_map`, `unmap` and `get_entry` of `arch/riscv64/pgtable.rs` on the
packed entries of the tables in memory: together they are a partial map from
pages to frames.
-/
import Redwing.PteBits
import Redwing.RadixTables
import Redwing.PageTableRange

namespace Redwing.PageMap

open Vm RadixTables Function Option

/-- What page tables rely on from the page allocator: a page of a granted
request is one that nobody holds.  `none` is a request turned down. -/
structure FrameSource where
  pick : Nat → List (BitVec 64) → Option (BitVec 64)
  fresh : ∀ {clock issued page}, pick clock issued = some page → page ∉ issued
  aligned : ∀ {clock issued page}, pick clock issued = some page → page % 4096#64 = 0#64

/-- The memory: the packed entries of every page, and the pages that were
handed out. -/
structure Mem where
  tables : BitVec 64 → Nat → PteBits
  issued : List (BitVec 64)
  clock : Nat

/-- A reference to an entry: the address of the table and the index in it. -/
structure Ref where
  table : BitVec 64
  idx : Nat
deriving DecidableEq

namespace Mem

def pte (m : Mem) (r : Ref) : PteBits := m.tables r.table r.idx

def setPte (m : Mem) (r : Ref) (e : PteBits) : Mem :=
  { m with tables := setEntry m.tables r.table r.idx e }

end Mem

section

variable (src : FrameSource)

def tryAlloc (m : Mem) : Mem × Option (BitVec 64) :=
  let m' := { m with clock := m.clock + 1 }
  match src.pick m.clock m.issued with
  | none => (m', none)
  | some page =>
    ({ m' with
      tables := update m.tables page fun _ => 0#64
      issued := page :: m.issued }, some page)

/-- `as_table`, with its assertion. -/
def asTable (e : PteBits) : Option (BitVec 64) :=
  if e.isPageTable then some e.physicalAddr else none

/-- The table under an entry, created if the entry is not valid; `none` in the
result when the page for it is turned down. -/
def ensureTable (pde : Ref) (m : Mem) : Option (Mem × Option (BitVec 64)) :=
  if (m.pte pde).isValid then (asTable (m.pte pde)).map fun table => (m, some table)
  else
    match tryAlloc src m with
    | (m, none) => some (m, none)
    | (m, some page) => some (m.setPte pde (.makePde page), some page)

def walk (root : BitVec 64) (va : Nat) (m : Mem) : Option (Mem × Option Ref) :=
  match ensureTable src ⟨root, indexForVa 2 va⟩ m with
  | none => none
  | some (m, none) => some (m, none)
  | some (m, some table) =>
    match ensureTable src ⟨table, indexForVa 1 va⟩ m with
    | none => none
    | some (m, none) => some (m, none)
    | some (m, some table) => some (m, some ⟨table, indexForVa 0 va⟩)

def noPte : SysError := { kind := .outOfMemory, msg := some "could not allocate a PTE" }

section

variable (root : BitVec 64) (va : Nat) (pa : BitVec 64) (perm : EntryPerm) (m : Mem)

def map : Option (Mem × Except SysError Ref) :=
  if vaLimit ≤ va then none
  else
    match walk src root va m with
    | none => none
    | some (m, none) => some (m, .error noPte)
    | some (m, some r) =>
      match (m.pte r).setPhysicalAddr pa with
      | none => none
      | some e => some (m.setPte r (e.applyPerm (perm.union .onlyValid)), .ok r)

def tryMap : Option (Mem × Except SysError (Option Ref)) :=
  if vaLimit ≤ va then none
  else
    match walk src root va m with
    | none => none
    | some (m, none) => some (m, .error noPte)
    | some (m, some r) =>
      if (m.pte r).isValid then some (m, .ok none)
      else
        match (m.pte r).setPhysicalAddr pa with
        | none => none
        | some e => some (m.setPte r (e.applyPerm (perm.union .onlyValid)), .ok (some r))

end
end

section

variable (root : BitVec 64) (va : Nat) (m : Mem)

def getEntryMut : Option (Option Ref) :=
  if vaLimit ≤ va then none
  else
    let top := m.pte ⟨root, indexForVa 2 va⟩
    if !top.isValid then some none
    else
      match asTable top with
      | none => none
      | some table =>
        let mid := m.pte ⟨table, indexForVa 1 va⟩
        if !mid.isValid then some none
        else
          match asTable mid with
          | none => none
          | some table =>
            let r := Ref.mk table (indexForVa 0 va)
            some (if (m.pte r).isValid then some r else none)

/-- `get_entry`: the same walk; it asserts what `as_table` asserts. -/
def getEntry : Option (Option PteBits) := (getEntryMut root va m).map fun r => r.map m.pte

def unmap : Option (Mem × Option (BitVec 64)) :=
  match getEntryMut root va m with
  | none => none
  | some none => some (m, none)
  | some (some r) => some (m.setPte r 0#64, some (m.pte r).physicalAddr)

end

/-- The calls on a page table. -/
inductive Call
  | map (va : Nat) (pa : BitVec 64) (perm : EntryPerm)
  | tryMap (va : Nat) (pa : BitVec 64) (perm : EntryPerm)
  | unmap (va : Nat)

inductive Ret
  | map (result : Except SysError Ref)
  | tryMap (result : Except SysError (Option Ref))
  | unmap (result : Option (BitVec 64))

def exec (src : FrameSource) (root : BitVec 64) : Call → Mem → Option (Mem × Ret)
  | .map va pa perm, m => (map src root va pa perm m).map fun out => (out.1, .map out.2)
  | .tryMap va pa perm, m => (tryMap src root va pa perm m).map fun out => (out.1, .tryMap out.2)
  | .unmap va, m => (unmap root va m).map fun out => (out.1, .unmap out.2)

def run (src : FrameSource) (root : BitVec 64) : List Call → Mem → Option (Mem × List (Call × Ret))
  | [], m => some (m, [])
  | call :: calls, m =>
    match exec src root call m with
    | none => none
    | some (m, ret) => (run src root calls m).map fun out => (out.1, (call, ret) :: out.2)

/-! ### The partial map -/

abbrev Frame := BitVec 64 × EntryPerm

def applied (f : Nat → Option Frame) : Call × Ret → Nat → Option Frame
  | (.map va pa perm, .map (.ok _)) => update f va (some (pa, perm.union .onlyValid))
  | (.tryMap va pa perm, .tryMap (.ok (some _))) => update f va (some (pa, perm.union .onlyValid))
  | (.unmap va, .unmap _) => update f va none
  | _ => f

/-- The mapping that was made last and not undone since. -/
def lastMapped (log : List (Call × Ret)) : Nat → Option Frame := log.foldl applied fun _ => none

/-- Page-aligned virtual addresses below `2 ^ 39`, and page frames other than
the one at address 0. -/
def LegalVa (va : Nat) : Prop := va % 4096 = 0 ∧ va < vaLimit

def LegalPa (pa : BitVec 64) : Prop := pa % 4096#64 = 0#64 ∧ pa ≠ 0#64

def Call.Legal : Call → Prop
  | .map va pa _ => LegalVa va ∧ LegalPa pa
  | .tryMap va pa _ => LegalVa va ∧ LegalPa pa
  | .unmap va => LegalVa va

def Call.Answer (f : Nat → Option Frame) : Call → Ret → Prop
  | .map _ _ _, .map (.ok _) => True
  | .map _ _ _, .map (.error err) => err = noPte
  | .tryMap va _ _, .tryMap (.ok (some _)) => f va = none
  | .tryMap va _ _, .tryMap (.ok none) => f va ≠ none
  | .tryMap va _ _, .tryMap (.error err) => f va = none ∧ err = noPte
  | .unmap va, .unmap result => result = (f va).map Prod.fst
  | _, _ => False

def Call.va : Call → Nat
  | .map va _ _ => va
  | .tryMap va _ _ => va
  | .unmap va => va

def view (root : BitVec 64) (va : Nat) (m : Mem) : Option (Option Frame) :=
  (getEntry root va m).map fun entry => entry.map fun e => (e.physicalAddr, e.perm)

/-! ### The tables of a page table -/

def next (e : PteBits) : Option (BitVec 64) :=
  if e.isValid then some e.physicalAddr else none

/-- The tables form a tree of three levels, and the valid entries of the upper
two are page tables. -/
structure Good (root : BitVec 64) (m : Mem) : Prop extends
    Tree next m.tables root 2 m.issued where
  pde : ∀ p a i, p.length < 2 → tableAt next m.tables root p = some a →
    (m.tables a i).isValid = true → (m.tables a i).isPageTable = true

def frame (e : PteBits) : Option Frame :=
  if e.isValid then some (e.physicalAddr, e.perm) else none

def frameIn (root : BitVec 64) (m : Mem) (path : List Nat) (i : Nat) : Option Frame :=
  (entryAt next m.tables root path i).bind frame

/-- From `m` to `m'` tables were added, and nothing was mapped. -/
structure Extends (root : BitVec 64) (m m' : Mem) : Prop where
  good : Good root m'
  frames : ∀ q j, q.length = 2 → frameIn root m' q j = frameIn root m q j
  tables : ∀ q b, q.length ≤ 2 → tableAt next m.tables root q = some b →
    tableAt next m'.tables root q = some b

lemma Extends.refl (hm : Good root m) : Extends root m m :=
  ⟨hm, fun _ _ _ => rfl, fun _ _ _ h => h⟩

lemma Extends.trans (h : Extends root m m') (h' : Extends root m' m'') : Extends root m m'' where
  good := h'.good
  frames q j hq := (h'.frames q j hq).trans (h.frames q j hq)
  tables q b hq hb := h'.tables q b hq (h.tables q b hq hb)

section

variable {src : FrameSource} {root a page : BitVec 64} {m : Mem} {p : List Nat} {i : Nat}

lemma next_zero : next 0#64 = none := by decide

lemma next_makePde (haligned : page % 4096#64 = 0#64) : next (.makePde page) = some page := by
  have hdecode := decode_makePde page
  have hvalid : (PteBits.makePde page).isValid = true := by
    rw [← decode_isValid, hdecode]
    rfl
  have hppn : (PteBits.makePde page).decode.ppn = page.toNat / 4096 := by
    rw [hdecode]
    rfl
  rw [next, if_pos hvalid, physicalAddr_eq hppn haligned]

lemma Good.zeroPage (hm : Good root m) (hnew : page ∉ m.issued) (clock : Nat) : Extends root m
    { tables := update m.tables page fun _ => 0#64
      issued := m.issued
      clock } := by
  have htable : ∀ q : List Nat, q.length ≤ 2 →
      tableAt next (update m.tables page fun _ => 0#64) root q = tableAt next m.tables root q :=
    fun q hq => tableAt_update hm.toTree hnew _ hq
  have hold : ∀ b, b ∈ m.issued → update m.tables page (fun _ => 0#64) b = m.tables b := by
    intro b hb
    rw [update_of_ne]
    exact fun heq => hnew (heq ▸ hb)
  refine ⟨⟨hm.toTree.of_tableAt htable fun _ h => h, ?_⟩, ?_, ?_⟩
  · intro q b j hq hb hvalid
    dsimp only at hb hvalid ⊢
    rw [htable q (Nat.le_of_lt hq)] at hb
    rw [hold b (hm.mem q b (Nat.le_of_lt hq) hb)] at hvalid ⊢
    exact hm.pde q b j hq hb hvalid
  · intro q j hq
    rw [frameIn, frameIn, entryAt, entryAt]
    dsimp only
    rw [htable q (Nat.le_of_eq hq)]
    cases hb : tableAt next m.tables root q with
    | none => rfl
    | some b => rw [map_some, map_some, hold b (hm.mem q b (Nat.le_of_eq hq) hb)]
  · exact fun q b hq hb => (htable q hq).trans hb

lemma Good.link (hm : Good root m) (hp : p.length < 2) (ha : tableAt next m.tables root p = some a)
    (hnone : next (m.tables a i) = none) (hnew : page ∉ m.issued)
    (hzero : ∀ j, m.tables page j = 0#64) (haligned : page % 4096#64 = 0#64) (clock : Nat) :
    Extends root m
        { tables := setEntry m.tables a i (.makePde page)
          issued := page :: m.issued
          clock } ∧
      tableAt next (setEntry m.tables a i (.makePde page)) root (i :: p) =
        some page := by
  have hlink := next_makePde haligned
  have hempty : ∀ j, next (m.tables page j) = none := by
    intro j
    rw [hzero, next_zero]
  have hane : page ≠ a := fun heq => hnew (heq ▸ hm.mem p a (Nat.le_of_lt hp) ha)
  have hbefore : tableAt next m.tables root (i :: p) = none := by rw [tableAt, ha, bind_some, hnone]
  have hfind : ∀ q : List Nat, q.length ≤ 2 →
      tableAt next (setEntry m.tables a i (.makePde page)) root q =
        if q = i :: p then some page else tableAt next m.tables root q :=
    fun q hq => tableAt_link hm.toTree hp ha hnone hnew hempty hlink hq
  refine ⟨⟨⟨hm.toTree.link hp ha hnone hnew hempty hlink, ?_⟩, ?_, ?_⟩, ?_⟩
  · intro q b j hq hb hvalid
    dsimp only at hb hvalid ⊢
    rw [hfind q (Nat.le_of_lt hq)] at hb
    split at hb
    · cases hb
      rw [setEntry_of_ne hane, hzero] at hvalid
      cases hvalid
    by_cases hb' : b = a
    · subst hb'
      by_cases hj : j = i
      · subst hj
        rw [setEntry_self]
        exact makePde_isPageTable
      · rw [setEntry_index hj] at hvalid ⊢
        exact hm.pde q b j hq hb hvalid
    · rw [setEntry_of_ne hb'] at hvalid ⊢
      exact hm.pde q b j hq hb hvalid
  · intro q j hq
    rw [frameIn, frameIn, entryAt_link hm.toTree hp ha hnone hnew hempty hlink hq]
    split
    · rename_i hpath
      rw [entryAt, hpath, hbefore, hzero]
      rfl
    · rfl
  · intro q b hq hb
    dsimp only
    rw [hfind q hq, if_neg, hb]
    rintro rfl
    rw [hbefore] at hb
    cases hb
  · rw [hfind (i :: p) hp, if_pos rfl]

lemma ensureTable_spec (src : FrameSource) (hm : Good root m)
    (hp : p.length < 2) (ha : tableAt next m.tables root p = some a) (i : Nat) :
    ∃ m' found, ensureTable src ⟨a, i⟩ m = some (m', found) ∧ Extends root m m' ∧
      (∀ table, found = some table → tableAt next m'.tables root (i :: p) = some table) ∧
      (tableAt next m.tables root (i :: p) ≠ none → m' = m ∧ found ≠ none) := by
  rw [ensureTable, Mem.pte]
  dsimp only
  cases hvalid : (m.tables a i).isValid with
  | true =>
    have hnext : next (m.tables a i) = some (m.tables a i).physicalAddr := by
      rw [next, if_pos hvalid]
    refine ⟨m, some (m.tables a i).physicalAddr, ?_, .refl hm, ?_, fun _ => ⟨rfl, by simp⟩⟩
    · rw [if_pos rfl, asTable, if_pos (hm.pde p a i hp ha hvalid)]
      rfl
    · rintro table ⟨⟩
      rw [tableAt, ha, bind_some, hnext]
  | false =>
    have hnone : next (m.tables a i) = none := by
      rw [next, hvalid]
      rfl
    have hbefore : tableAt next m.tables root (i :: p) = none := by
      rw [tableAt, ha, bind_some, hnone]
    rw [if_neg (by decide), tryAlloc]
    cases hpick : src.pick m.clock m.issued with
    | none =>
      refine ⟨_, none, rfl, ⟨⟨hm.toTree, hm.pde⟩, fun _ _ _ => rfl,
        fun _ _ _ h => h⟩, ?_, fun hsome => absurd hbefore hsome⟩
      rintro table ⟨⟩
    | some page =>
      have hnew := src.fresh hpick
      have hzeroed := hm.zeroPage hnew (m.clock + 1)
      have hane : a ≠ page := fun heq => hnew (heq ▸ hm.mem p a (Nat.le_of_lt hp) ha)
      obtain ⟨hlinked, hthere⟩ := hzeroed.good.link hp (hzeroed.tables p a (Nat.le_of_lt hp) ha)
        (i := i) (by dsimp only; rw [update_of_ne hane]; exact hnone) hnew
        (fun j => by dsimp only; rw [update_self]) (src.aligned hpick) (m.clock + 1)
      refine ⟨_, some page, rfl, hzeroed.trans hlinked, ?_, fun hsome => absurd hbefore hsome⟩
      rintro table ⟨⟩
      exact hthere

end

/-! ### Walks -/

/-- The way to the last-level table of an address. -/
def path (va : Nat) : List Nat := [indexForVa 1 va, indexForVa 2 va]

def frameAt (root : BitVec 64) (m : Mem) (va : Nat) : Option Frame :=
  frameIn root m (path va) (indexForVa 0 va)

section

variable {src : FrameSource} {root : BitVec 64} {m : Mem} {va : Nat}

lemma frameAt_ne_none (h : frameAt root m va ≠ none) :
    tableAt next m.tables root [indexForVa 2 va] ≠ none ∧
      tableAt next m.tables root (path va) ≠ none := by
  have hleaf : tableAt next m.tables root (path va) ≠ none := by
    intro hnone
    rw [frameAt, frameIn, entryAt, hnone] at h
    exact h rfl
  refine ⟨fun hnone => hleaf ?_, hleaf⟩
  rw [path, tableAt, hnone]
  rfl

lemma walk_spec (src : FrameSource) (hm : Good root m) (va : Nat) :
    ∃ m' found, walk src root va m = some (m', found) ∧ Extends root m m' ∧
      (∀ r, found = some r → r.idx = indexForVa 0 va ∧
        tableAt next m'.tables root (path va) = some r.table) ∧
      (frameAt root m va ≠ none → m' = m ∧ found ≠ none) := by
  obtain ⟨m₁, found₁, hrun₁, hext₁, hfound₁, hsame₁⟩ := ensureTable_spec src hm
    (p := []) (by decide) rfl (indexForVa 2 va)
  rw [walk, hrun₁]
  cases found₁ with
  | none =>
    refine ⟨m₁, none, rfl, hext₁, by simp, fun hmapped => ?_⟩
    exact absurd rfl (hsame₁ (frameAt_ne_none hmapped).1).2
  | some table =>
    obtain ⟨m₂, found₂, hrun₂, hext₂, hfound₂, hsame₂⟩ :=
      ensureTable_spec src hext₁.good (p := [indexForVa 2 va]) (by simp)
        (hfound₁ table rfl) (indexForVa 1 va)
    have hsame : frameAt root m va ≠ none → m₂ = m ∧ found₂ ≠ none := by
      intro hmapped
      obtain ⟨htop, hmid⟩ := frameAt_ne_none hmapped
      obtain rfl := (hsame₁ htop).1
      exact hsame₂ hmid
    dsimp only
    rw [hrun₂]
    cases found₂ with
    | none =>
      exact ⟨m₂, none, rfl, hext₁.trans hext₂, by simp, fun hmapped => absurd rfl (hsame hmapped).2⟩
    | some table' =>
      refine ⟨m₂, some ⟨table', indexForVa 0 va⟩, rfl, hext₁.trans hext₂,
        ?_, fun hmapped => ⟨(hsame hmapped).1, by simp⟩⟩
      rintro r ⟨⟩
      exact ⟨rfl, hfound₂ table' rfl⟩

lemma frameAt_eq (hidx : r.idx = indexForVa 0 va)
    (htable : tableAt next m.tables root (path va) = some r.table) :
    frameAt root m va = frame (m.pte r) := by
  rw [frameAt, frameIn, entryAt, htable, ← hidx]
  rfl

lemma getEntryMut_spec (hm : Good root m) (hva : va < vaLimit) :
    (frameAt root m va = none ∧ getEntryMut root va m = some none) ∨
      ∃ r, getEntryMut root va m = some (some r) ∧ r.idx = indexForVa 0 va ∧
        tableAt next m.tables root (path va) = some r.table ∧
        (m.pte r).isValid = true := by
  rw [getEntryMut, if_neg (by omega)]
  dsimp only [Mem.pte]
  cases htop : (m.tables root (indexForVa 2 va)).isValid with
  | false =>
    have hnone : tableAt next m.tables root [indexForVa 2 va] = none := by
      rw [tableAt, tableAt, bind_some, next, htop]
      rfl
    refine .inl ⟨?_, rfl⟩
    by_contra hmapped
    exact (frameAt_ne_none hmapped).1 hnone
  | true =>
    have hpde := hm.pde [] root (indexForVa 2 va) (by decide) rfl htop
    have hmid : tableAt next m.tables root [indexForVa 2 va] =
        some (m.tables root (indexForVa 2 va)).physicalAddr := by
      rw [tableAt, tableAt, bind_some, next, if_pos htop]
    simp only [asTable, hpde, if_true, Bool.not_true, Bool.false_eq_true, if_false]
    generalize (m.tables root (indexForVa 2 va)).physicalAddr = a at hmid ⊢
    cases hvalid : (m.tables a (indexForVa 1 va)).isValid with
    | false =>
      refine .inl ⟨?_, rfl⟩
      by_contra hmapped
      apply (frameAt_ne_none hmapped).2
      rw [path, tableAt, hmid, bind_some, next, hvalid]
      rfl
    | true =>
      have hpde' := hm.pde _ a (indexForVa 1 va) (by simp) hmid hvalid
      have hleaf : tableAt next m.tables root (path va) =
          some (m.tables a (indexForVa 1 va)).physicalAddr := by
        rw [path, tableAt, hmid, bind_some, next, if_pos hvalid]
      simp only [hpde', if_true, Bool.not_true, Bool.false_eq_true, if_false]
      generalize (m.tables a (indexForVa 1 va)).physicalAddr = b at hleaf ⊢
      by_cases hentry : (m.tables b (indexForVa 0 va)).isValid = true
      · simp only [hentry, if_true]
        exact .inr ⟨⟨b, indexForVa 0 va⟩, rfl, rfl, hleaf, hentry⟩
      have hframe : frameAt root m va = frame (m.pte ⟨b, indexForVa 0 va⟩) := frameAt_eq rfl hleaf
      rw [frame, Mem.pte, if_neg hentry] at hframe
      simp only [hentry]
      exact .inl ⟨hframe, rfl⟩

end

/-! ### Calls -/

section

variable {src : FrameSource} {root : BitVec 64} {m : Mem} {va va' : Nat} {r : Ref} {e : PteBits}

lemma eq_of_indices (hva : LegalVa va) (hva' : LegalVa va') (hpath : path va' = path va)
    (hidx : indexForVa 0 va' = indexForVa 0 va) : va' = va := by
  obtain ⟨haligned, hlt⟩ := hva
  obtain ⟨haligned', hlt'⟩ := hva'
  obtain ⟨page, rfl⟩ : ∃ page, va = page * 4096 := ⟨va / 4096, by omega⟩
  obtain ⟨page', rfl⟩ : ∃ page, va' = page * 4096 := ⟨va' / 4096, by omega⟩
  simp only [path, List.cons.injEq, and_true, indexForVa_page] at hpath hidx
  rw [vaLimit] at hlt hlt'
  omega

lemma Good.setPte (hm : Good root m) (htable : tableAt next m.tables root (path va) = some r.table)
    (e : PteBits) : Good root (m.setPte r e) := by
  have hfind := fun (q : List Nat) (hq : q.length ≤ 2) =>
    tableAt_setLeaf hm.toTree (p := path va) rfl htable r.idx e hq
  refine ⟨hm.toTree.setLeaf (p := path va) rfl htable r.idx e, ?_⟩
  intro q b j hq hb hvalid
  dsimp only [Mem.setPte] at hb hvalid ⊢
  rw [hfind q (Nat.le_of_lt hq)] at hb
  have hne : b ≠ r.table := by
    rintro rfl
    have heq := hm.separate q (path va) _ (Nat.le_of_lt hq) le_rfl hb htable
    rw [heq] at hq
    exact absurd hq (by simp [path])
  rw [setEntry_of_ne hne] at hvalid ⊢
  exact hm.pde q b j hq hb hvalid

lemma frameAt_setPte (hm : Good root m) (hva : LegalVa va)
    (hva' : LegalVa va') (hidx : r.idx = indexForVa 0 va)
    (htable : tableAt next m.tables root (path va) = some r.table) :
    frameAt root (m.setPte r e) va' =
      if va' = va then frame e else frameAt root m va' := by
  rw [frameAt, frameIn, Mem.setPte]
  dsimp only
  rw [entryAt_setLeaf hm.toTree (p := path va) rfl htable rfl]
  by_cases heq : va' = va
  · subst heq
    rw [if_pos ⟨rfl, hidx.symm⟩, if_pos rfl]
    rfl
  rw [if_neg heq, if_neg]
  · rfl
  · rintro ⟨hpath, hidx'⟩
    exact heq (eq_of_indices hva hva' hpath (hidx'.trans hidx))

lemma frame_mapped (hpa : LegalPa pa) (e : PteBits) (perm : EntryPerm) :
    ∃ e', e.setPhysicalAddr pa = some e' ∧ frame (e'.applyPerm (perm.union .onlyValid)) =
        some (pa, perm.union .onlyValid) := by
  have hset : e.setPhysicalAddr pa = some ((e &&& flagsMask) ||| ((pa / 4096#64) <<< 10)) := by
    rw [PteBits.setPhysicalAddr, if_pos ⟨hpa.1, hpa.2⟩]
  refine ⟨_, hset, ?_⟩
  generalize (e &&& flagsMask) ||| ((pa / 4096#64) <<< 10) = e' at hset ⊢
  have hdecode := decode_setPhysicalAddr e pa
  rw [hset, Pte.setPhysicalAddr, if_pos ((frame_iff pa).mp hpa)] at hdecode
  have hdecode := some.inj hdecode
  have happlied := decode_applyPerm e' (perm.union .onlyValid)
  rw [hdecode] at happlied
  have hperm : (e'.applyPerm (perm.union .onlyValid)).perm =
      perm.union .onlyValid := congrArg Pte.perm happlied
  have haddr := physicalAddr_eq (congrArg Pte.ppn happlied) hpa.1
  have hvalid : (e'.applyPerm (perm.union .onlyValid)).isValid = true := by
    have hflag := congrArg EntryPerm.valid hperm
    simpa [PteBits.perm, EntryPerm.union, EntryPerm.onlyValid] using hflag
  rw [frame, if_pos hvalid, haddr, hperm]

lemma view_eq (hm : Good root m) (hva : LegalVa va) :
    view root va m = some (frameAt root m va) := by
  rw [view, getEntry]
  rcases getEntryMut_spec hm hva.2 with ⟨hframe, hget⟩ | ⟨r, hget, hidx, htable, hvalid⟩
  · rw [hget, hframe]
    rfl
  · rw [hget, frameAt_eq hidx htable, frame, if_pos hvalid]
    rfl

lemma LegalVa.not_le (hva : LegalVa va) : ¬ vaLimit ≤ va := Nat.not_le.mpr hva.2

lemma mapped_spec (hext : Extends root m₀ m) (hva : LegalVa va) (hpa : LegalPa pa)
    (hidx : r.idx = indexForVa 0 va)
    (htable : tableAt next m.tables root (path va) = some r.table) (perm : EntryPerm) :
    ∃ e, (m.pte r).setPhysicalAddr pa = some e ∧
      Good root (m.setPte r (e.applyPerm (perm.union .onlyValid))) ∧
      ∀ va', LegalVa va' → frameAt root (m.setPte r (e.applyPerm (perm.union .onlyValid))) va' =
          update (frameAt root m₀) va (some (pa, perm.union .onlyValid)) va' := by
  obtain ⟨e, hset, hframe⟩ := frame_mapped hpa (m.pte r) perm
  refine ⟨e, hset, hext.good.setPte htable _, fun va' hva' => ?_⟩
  rw [frameAt_setPte hext.good hva hva' hidx htable, hframe, update_apply]
  split
  · rfl
  · exact hext.frames _ _ rfl

lemma exec_spec (hm : Good root m) (hcall : call.Legal) :
    ∃ m' ret, exec src root call m = some (m', ret) ∧ Good root m' ∧ (∀ va, LegalVa va →
        frameAt root m' va = applied (frameAt root m) (call, ret) va) ∧
      call.Answer (frameAt root m) ret ∧
      (ret = .tryMap (.ok none) → m' = m) := by
  cases call with
  | map va pa perm =>
    obtain ⟨hva, hpa⟩ := hcall
    obtain ⟨m₁, found, hwalk, hext, hfound, -⟩ := walk_spec src hm va
    rw [exec, map, if_neg hva.not_le, hwalk]
    cases found with
    | none =>
      exact ⟨m₁, .map (.error noPte), rfl, hext.good,
        fun va' _ => hext.frames _ _ rfl, rfl, fun h => by cases h⟩
    | some r =>
      obtain ⟨hidx, htable⟩ := hfound r rfl
      obtain ⟨e, hset, hgood, hframes⟩ := mapped_spec hext hva hpa hidx htable perm
      dsimp only
      rw [hset]
      exact ⟨_, .map (.ok r), rfl, hgood, hframes, trivial, fun h => by cases h⟩
  | tryMap va pa perm =>
    obtain ⟨hva, hpa⟩ := hcall
    obtain ⟨m₁, found, hwalk, hext, hfound, hsame⟩ := walk_spec src hm va
    rw [exec, tryMap, if_neg hva.not_le, hwalk]
    cases found with
    | none =>
      have hnone : frameAt root m va = none := by
        by_contra hmapped
        exact (hsame hmapped).2 rfl
      exact ⟨m₁, .tryMap (.error noPte), rfl, hext.good, fun va' _ => hext.frames _ _ rfl,
        ⟨hnone, rfl⟩, fun h => by cases h⟩
    | some r =>
      obtain ⟨hidx, htable⟩ := hfound r rfl
      have hframe : frameAt root m va = frame (m₁.pte r) :=
        (hext.frames _ _ rfl).symm.trans (frameAt_eq hidx htable)
      dsimp only
      by_cases hvalid : (m₁.pte r).isValid = true
      · have hmapped : frameAt root m va ≠ none := by
          rw [hframe, frame, if_pos hvalid]
          simp
        rw [if_pos hvalid]
        exact ⟨m₁, .tryMap (.ok none), rfl, hext.good, fun va' _ => hext.frames _ _ rfl, hmapped,
          fun _ => (hsame hmapped).1⟩
      have hnone : frameAt root m va = none := by rw [hframe, frame, if_neg hvalid]
      obtain ⟨e, hset, hgood, hframes⟩ := mapped_spec hext hva hpa hidx htable perm
      rw [if_neg hvalid, hset]
      exact ⟨_, .tryMap (.ok (some r)), rfl, hgood, hframes, hnone, fun h => by cases h⟩
  | unmap va =>
    have hva : LegalVa va := hcall
    rw [exec, unmap]
    rcases getEntryMut_spec hm hva.2 with ⟨hframe, hget⟩ | ⟨r, hget, hidx, htable, hvalid⟩
    · rw [hget]
      refine ⟨m, .unmap none, rfl, hm, fun va' _ => ?_, by
        rw [Call.Answer, hframe]; rfl, fun h => by cases h⟩
      rw [applied, update_apply]
      split
      · rename_i heq
        rw [heq, hframe]
      · rfl
    have hframe := frameAt_eq hidx htable
    rw [frame, if_pos hvalid] at hframe
    rw [hget]
    refine ⟨_, .unmap (some (m.pte r).physicalAddr), rfl,
      hm.setPte htable 0#64, fun va' hva' => ?_, by
        rw [Call.Answer, hframe]; rfl, fun h => by cases h⟩
    rw [frameAt_setPte hm hva hva' hidx htable, applied, update_apply]
    rfl

end

section

variable {src : FrameSource} {root : BitVec 64} {m : Mem}

lemma applied_congr (entry : Call × Ret) (h : ∀ va, LegalVa va → f va = g va) (va : Nat)
    (hva : LegalVa va) : applied f entry va = applied g entry va := by
  have hupdate : ∀ va' frame, update f va' frame va =
      update g va' frame va := by
    intro va' frame
    rw [update_apply, update_apply, h va hva]
  simp only [applied]
  split
  · exact hupdate _ _
  · exact hupdate _ _
  · exact hupdate _ _
  · exact h va hva

lemma applied_of_ne (hne : va ≠ entry.1.va) : applied f entry va = f va := by
  simp only [applied]
  split
  · exact update_of_ne hne _ _
  · exact update_of_ne hne _ _
  · exact update_of_ne hne _ _
  · rfl

lemma Call.Answer.congr {f g : Nat → Option Frame} {call : Call} {ret : Ret}
    (hanswer : call.Answer f ret) (h : f call.va = g call.va) : call.Answer g ret := by
  simp only [Call.Answer] at hanswer ⊢
  split at hanswer
  · trivial
  · exact hanswer
  · exact h.symm.trans hanswer
  · exact fun hnone => hanswer (h.trans hnone)
  · exact ⟨h.symm.trans hanswer.1, hanswer.2⟩
  · exact hanswer.trans (congrArg _ h)
  · exact hanswer.elim

lemma run_spec (src : FrameSource) (hcalls : ∀ call ∈ calls, call.Legal)
    (hm : Good root m) (hf : ∀ va, LegalVa va → frameAt root m va = f va) :
    ∃ m' log, run src root calls m = some (m', log) ∧ Good root m' ∧
      ∀ va, LegalVa va → frameAt root m' va = log.foldl applied f va := by
  induction calls generalizing m f with
  | nil => exact ⟨m, [], rfl, hm, hf⟩
  | cons call calls ih =>
    obtain ⟨m₁, ret, hexec, hgood, hframes, -⟩ := exec_spec hm (hcalls call (List.mem_cons_self ..))
    obtain ⟨m', log, hrun, hgood', hframes'⟩ := ih
      (fun call h => hcalls call (List.mem_cons_of_mem _ h)) hgood
      (fun va hva => (hframes va hva).trans (applied_congr (call, ret) hf va hva))
    refine ⟨m', (call, ret) :: log, ?_, hgood', hframes'⟩
    rw [run, hexec]
    dsimp only
    rw [hrun]
    rfl

lemma tryAlloc_good (hnew : tryAlloc src mem = (m, some root)) :
    Good root m ∧ ∀ va, frameAt root m va = none := by
  rw [tryAlloc] at hnew
  cases hpick : src.pick mem.clock mem.issued with
  | none => simp [hpick] at hnew
  | some page =>
    simp only [hpick, Prod.mk.injEq, some.injEq] at hnew
    obtain ⟨rfl, rfl⟩ := hnew
    have hzero : ∀ j, update mem.tables page (fun _ => 0#64) page j = 0#64 := by
      intro j
      rw [update_self]
    have hbelow : ∀ (i : Nat) (p : List Nat), tableAt next
        (update mem.tables page fun _ => 0#64) page (i :: p) =
          none := by
      intro i p
      induction p generalizing i with
      | nil => rw [tableAt, tableAt, bind_some, hzero, next_zero]
      | cons j p ih =>
        rw [tableAt, ih]
        rfl
    have hroot : ∀ (p : List Nat) (a : BitVec 64), tableAt next
        (update mem.tables page fun _ => 0#64) page p = some a → p = [] ∧ a = page := by
      intro p a ha
      cases p with
      | nil => exact ⟨rfl, (some.inj ha).symm⟩
      | cons i p =>
        rw [hbelow] at ha
        cases ha
    refine ⟨⟨⟨?_, ?_⟩, ?_⟩, ?_⟩
    · intro p a _ ha
      rw [(hroot p a ha).2]
      exact List.mem_cons_self ..
    · intro p q a _ _ ha ha'
      rw [(hroot p a ha).1, (hroot q a ha').1]
    · intro p a i _ ha hvalid
      rw [(hroot p a ha).2] at hvalid
      dsimp only at hvalid
      rw [hzero] at hvalid
      cases hvalid
    intro va
    rw [frameAt, frameIn, entryAt, path]
    dsimp only
    rw [hbelow]
    rfl

/-- A page table is a partial map: after every sequence of calls on a new table
`get_entry` tells the mapping that was made last and not undone, and every
further call comes back with the answer that this mapping calls for and leaves
the other pages alone. -/
theorem run_view (src : FrameSource) {mem m : Mem} {root : BitVec 64}
    (hnew : tryAlloc src mem = (m, some root)) {calls : List Call}
    (hcalls : ∀ call ∈ calls, call.Legal) :
    ∃ m' log, run src root calls m = some (m', log) ∧
      (∀ va, LegalVa va → view root va m' = some (lastMapped log va)) ∧
      ∀ call : Call, call.Legal → ∃ m'' ret, exec src root call m' = some (m'', ret) ∧
          call.Answer (lastMapped log) ret ∧
          (ret = .tryMap (.ok none) → m'' = m') ∧
          ∀ va, LegalVa va → va ≠ call.va → view root va m'' = view root va m' := by
  obtain ⟨hgood, hempty⟩ := tryAlloc_good hnew
  obtain ⟨m', log, hrun, hgood', hframes⟩ := run_spec src hcalls hgood fun va _ => hempty va
  refine ⟨m', log, hrun, fun va hva => ?_, fun call hcall => ?_⟩
  · rw [view_eq hgood' hva, hframes va hva]
    rfl
  obtain ⟨m'', ret, hexec, hgood'', hframes', hanswer, hsame⟩ := exec_spec hgood' hcall
  have hva : LegalVa call.va := by
    cases call with
    | map | tryMap => exact hcall.1
    | unmap => exact hcall
  refine ⟨m'', ret, hexec, ?_, hsame, fun va hva' hne => ?_⟩
  · exact hanswer.congr (hframes call.va hva)
  · rw [view_eq hgood'' hva', view_eq hgood' hva', hframes' va hva', applied_of_ne hne]

def threePages : FrameSource where
  pick _ issued := [4096#64, 8192#64, 12288#64].find? (· ∉ issued)
  fresh h := by simpa using List.find?_some h
  aligned h := by
    have hmem := List.mem_of_find?_eq_some h
    simp only [List.mem_cons, List.not_mem_nil, or_false] at hmem
    obtain rfl | rfl | rfl := hmem <;> rfl

def blankMem : Mem := { tables := fun _ _ => 0#64, issued := [], clock := 0 }

theorem run_view_map_unmap : ∃ m root, tryAlloc threePages blankMem = (m, some root) ∧
      (∀ call ∈ [Call.map 0 4096#64 .onlyValid, Call.unmap 0], call.Legal) ∧
      ∃ m' log, run threePages root [.map 0 4096#64 .onlyValid, .unmap 0] m = some (m', log) ∧
        ∀ va, LegalVa va → view root va m' = some (lastMapped log va) := by
  have hnew : tryAlloc threePages blankMem =
      ({ tables := update blankMem.tables 4096#64 fun _ => 0#64
         issued := [4096#64]
         clock := 1 }, some 4096#64) := by
    have hpick : threePages.pick blankMem.clock blankMem.issued = some 4096#64 := by decide
    rw [tryAlloc, hpick]
    rfl
  have hcalls : ∀ call ∈ [Call.map 0 4096#64 .onlyValid, Call.unmap 0],
      call.Legal := by
    intro call hcall
    simp only [List.mem_cons, List.not_mem_nil, or_false] at hcall
    obtain rfl | rfl := hcall
    · exact ⟨⟨rfl, by decide⟩, rfl, by decide⟩
    · exact ⟨rfl, by decide⟩
  obtain ⟨m', log, hrun, hview, -⟩ := run_view threePages hnew hcalls
  exact ⟨_, _, hnew, hcalls, m', log, hrun, hview⟩

end
end Redwing.PageMap
