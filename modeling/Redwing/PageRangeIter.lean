/-
The range iterator of `arch/riscv64/pgtable.rs`: three iterators over tables,
those of the lower levels restarted whenever the one above moves on.
-/
import Redwing.SharedTables

namespace Redwing.Shared

open Function Vm Walks List

/-- What an iterator over a table yields: the index of a valid entry, the
address it maps and where it is. -/
structure RangeItem where
  idx : Nat
  va : Nat
  pte : PteRef
deriving DecidableEq

structure TableRangeIter where
  table : Nat
  level : Nat
  baseVa : Nat
  curIdx : Nat
  startIdx : Nat
  endIdx : Nat
  isFirst : Bool
  isLast : Bool

namespace TableRangeIter

def new (table level baseVa startVa endVa : Nat) (isFirst isLast : Bool) : TableRangeIter where
  table
  level
  baseVa
  curIdx := Vm.startIdx level startVa isFirst
  startIdx := Vm.startIdx level startVa isFirst
  endIdx := Vm.endIdx level endVa isLast
  isFirst
  isLast

def item (it : TableRangeIter) (idx : Nat) : RangeItem where
  idx
  va := it.baseVa ||| vaForIndex it.level idx
  pte := ⟨it.table, idx⟩

def nextLoop (m : Phys) : Nat → TableRangeIter → Option RangeItem × TableRangeIter
  | 0, it => (none, it)
  | fuel + 1, it =>
    let next := { it with curIdx := it.curIdx + 1 }
    if (m.pte ⟨it.table, it.curIdx⟩).isValid then (some (it.item it.curIdx), next)
    else nextLoop m fuel next

def next (m : Phys) (it : TableRangeIter) : Option RangeItem × TableRangeIter :=
  nextLoop m (it.endIdx - it.curIdx) it

end TableRangeIter

structure InternalRangeIter where
  tableIters : Nat → TableRangeIter
  startVa : Nat
  endVa : Nat

namespace InternalRangeIter

/-- The iterators of the lower levels are dummies that yield nothing. -/
def new (root startVa endVa : Nat) : InternalRangeIter where
  tableIters level :=
    if level = 2 then .new root 2 0 startVa endVa true true
    else .new root 2 0 0 0 true true
  startVa
  endVa

def setIter (it : InternalRangeIter) (level : Nat) (iter : TableRangeIter) : InternalRangeIter :=
  { it with tableIters := update it.tableIters level iter }

def nextRecursive (m : Phys) : Nat → Nat → InternalRangeIter →
    Option (Option RangeItem × InternalRangeIter)
  | 0, _, _ => none
  | fuel + 1, level, it =>
    match (it.tableIters level).next m with
    | (some entry, iter) => some (some entry, it.setIter level iter)
    | (none, iter) =>
      let it := it.setIter level iter
      if level = 2 then some (none, it)
      else
        match nextRecursive m fuel (level + 1) it with
        | none => none
        | some (none, it) => some (none, it)
        | some (some pde, it) =>
          let up := it.tableIters (level + 1)
          let isFirst := up.isFirst && up.startIdx == pde.idx
          let isLast := up.isLast && up.endIdx - 1 == pde.idx
          let iter := TableRangeIter.new (m.pte pde.pte).physicalAddr
            level pde.va it.startVa it.endVa isFirst isLast
          nextRecursive m fuel level (it.setIter level iter)

end InternalRangeIter

/-- Calling `next` again and again yields these entries and then nothing. -/
inductive Collects (m : Phys) :
    InternalRangeIter → List (Nat × PteRef) → Prop
  | done {fuel : Nat} {it it' : InternalRangeIter}
      (hnext : it.nextRecursive m fuel 0 = some (none, it')) :
      Collects m it []
  | next {fuel : Nat} {it it' : InternalRangeIter} {entry : RangeItem}
      {rest : List (Nat × PteRef)}
      (hnext : it.nextRecursive m fuel 0 = some (some entry, it'))
      (hrest : Collects m it' rest) :
      Collects m it ((entry.va, entry.pte) :: rest)

/-! ### What is left to yield -/

namespace TableRangeIter

variable {m : Phys} {it : TableRangeIter}

def items (m : Phys) (it : TableRangeIter) : List RangeItem :=
  ((interval it.curIdx it.endIdx).map it.item).filter fun entry => (m.pte entry.pte).isValid

def flags (it : TableRangeIter) (entry : RangeItem) : Bool × Bool :=
  (it.isFirst && it.startIdx == entry.idx, it.isLast && it.endIdx - 1 == entry.idx)

def tagged (m : Phys) (it : TableRangeIter) : List (RangeItem × Bool × Bool) :=
  (it.items m).map fun entry => (entry, it.flags entry)

lemma items_of_le (h : it.endIdx ≤ it.curIdx) : it.items m = [] := by
  rw [items, interval_eq_nil h]
  rfl

lemma items_of_lt (h : it.curIdx < it.endIdx) : it.items m =
    if (m.pte ⟨it.table, it.curIdx⟩).isValid then
      it.item it.curIdx :: { it with curIdx := it.curIdx + 1 }.items m
    else { it with curIdx := it.curIdx + 1 }.items m := by
  rw [items, interval_cons h, map_cons, filter_cons]
  rfl

lemma next_spec (m : Phys) (it : TableRangeIter) :
    ∃ idx, (it.items m = [] ∧ it.next m = (none, { it with curIdx := idx }) ∧
        { it with curIdx := idx }.items m = []) ∨
      ∃ entry, it.next m = (some entry, { it with curIdx := idx }) ∧
        it.items m = entry :: { it with curIdx := idx }.items m := by
  suffices hloop : ∀ fuel it, fuel = it.endIdx - it.curIdx → ∃ idx, (it.items m = [] ∧
          nextLoop m fuel it = (none, { it with curIdx := idx }) ∧
          { it with curIdx := idx }.items m = []) ∨
        ∃ entry, nextLoop m fuel it = (some entry, { it with curIdx := idx }) ∧
          it.items m = entry :: { it with curIdx := idx }.items m from
    hloop _ it rfl
  intro fuel
  induction fuel with
  | zero =>
    intro it hfuel
    have hnil : it.items m = [] := items_of_le (by omega)
    exact ⟨it.curIdx, .inl ⟨hnil, rfl, hnil⟩⟩
  | succ fuel ih =>
    intro it hfuel
    have hitems : it.items m = _ := items_of_lt (by omega)
    rw [nextLoop]
    split
    · rename_i hvalid
      rw [if_pos hvalid] at hitems
      exact ⟨_, .inr ⟨_, rfl, hitems⟩⟩
    rename_i hinvalid
    rw [if_neg hinvalid] at hitems
    rw [hitems]
    exact ih { it with curIdx := it.curIdx + 1 } (by simp only; omega)

end TableRangeIter

namespace InternalRangeIter

variable {m : Phys} {it : InternalRangeIter}

def below (m : Phys) (it : InternalRangeIter) (level : Nat)
    (entry : RangeItem × Bool × Bool) : TableRangeIter :=
  .new (m.pte entry.1.pte).physicalAddr level entry.1.va it.startVa it.endVa entry.2.1 entry.2.2

/-- The entries of a level that are left, `height` levels below the top: those
of the current table and those of the tables under the entries that are left
above. -/
def pending (m : Phys) (it : InternalRangeIter) : Nat → List (RangeItem × Bool × Bool)
  | 0 => (it.tableIters 2).tagged m
  | height + 1 =>
    (it.tableIters (1 - height)).tagged m ++ (pending m it height).flatMap fun entry =>
        (it.below m (1 - height) entry).tagged m

lemma setIter_self (it : InternalRangeIter) (level : Nat) (iter : TableRangeIter) :
    (it.setIter level iter).tableIters level = iter :=
  update_self ..

variable {level : Nat} {it' : InternalRangeIter}

lemma setIter_of_ne (it : InternalRangeIter) (h : l ≠ level) (iter : TableRangeIter) :
    (it.setIter level iter).tableIters l = it.tableIters l :=
  update_of_ne h _ _

/-- The same range, and the same iterators below a level. -/
structure SameBelow (level : Nat) (it it' : InternalRangeIter) : Prop where
  startVa : it'.startVa = it.startVa
  endVa : it'.endVa = it.endVa
  iters : ∀ l, l < level → it'.tableIters l = it.tableIters l

lemma sameBelow_setIter (it : InternalRangeIter) (level : Nat)
    (iter : TableRangeIter) : SameBelow level it (it.setIter level iter) :=
  ⟨rfl, rfl, fun _ hl => setIter_of_ne it (Nat.ne_of_lt hl) iter⟩

lemma SameBelow.trans (h : SameBelow level it it') (h' : SameBelow level it' it'') :
    SameBelow level it it'' :=
  ⟨h'.startVa.trans h.startVa, h'.endVa.trans h.endVa,
    fun l hl => (h'.iters l hl).trans (h.iters l hl)⟩

lemma SameBelow.mono (h : SameBelow level it it') (hle : level' ≤ level) :
    SameBelow level' it it' :=
  ⟨h.startVa, h.endVa, fun l hl => h.iters l (hl.trans_le hle)⟩

lemma SameBelow.below (h : SameBelow level it it') (l : Nat) : it'.below m l = it.below m l := by
  funext entry
  rw [InternalRangeIter.below, InternalRangeIter.below, h.startVa, h.endVa]

lemma pending_setIter (hlevel : level < 2 - height) (iter : TableRangeIter) :
    (it.setIter level iter).pending m height = it.pending m height := by
  induction height with
  | zero => rw [pending, pending, setIter_of_ne it (by omega)]
  | succ height ih =>
    rw [pending, pending, ih (by omega), (sameBelow_setIter it level iter).below,
      setIter_of_ne it (by omega)]

/-- What one call of `next_recursive` does to a level. -/
inductive Moves (m : Phys) (height : Nat) (it : InternalRangeIter) :
    Option RangeItem → InternalRangeIter → Prop
  | done {it' : InternalRangeIter} (h : SameBelow (2 - height) it it')
      (hold : it.pending m height = []) (hnew : it'.pending m height = []) :
      Moves m height it none it'
  | next {it' : InternalRangeIter} {entry : RangeItem}
      (h : SameBelow (2 - height) it it')
      (hold : it.pending m height = (entry, (it'.tableIters (2 - height)).flags entry) ::
          it'.pending m height) :
      Moves m height it (some entry) it'

def Returns (m : Phys) (level : Nat) (it : InternalRangeIter)
    (out : Option RangeItem × InternalRangeIter) : Prop :=
  ∃ bound, ∀ fuel, bound ≤ fuel → it.nextRecursive m fuel level = some out

lemma returns_some (hnext : (it.tableIters level).next m =
      (some entry, { it.tableIters level with curIdx := idx })) :
    Returns m level it (some entry,
      it.setIter level { it.tableIters level with curIdx := idx }) := by
  refine ⟨1, fun fuel hfuel => ?_⟩
  obtain ⟨fuel, rfl⟩ := Nat.exists_eq_add_of_le' hfuel
  simp [nextRecursive, hnext]

lemma returns_none (hlevel : level ≠ 2) (hnext : (it.tableIters level).next m =
      (none, { it.tableIters level with curIdx := idx }))
    {it' : InternalRangeIter}
    (hup : Returns m (level + 1) (it.setIter level { it.tableIters level with curIdx := idx })
      (none, it')) : Returns m level it (none, it') := by
  obtain ⟨bound, hup⟩ := hup
  refine ⟨bound + 1, fun fuel hfuel => ?_⟩
  obtain ⟨fuel, rfl⟩ := Nat.exists_eq_add_of_le' (Nat.le_of_add_left_le hfuel)
  simp [nextRecursive, hnext, hlevel, hup fuel (by omega)]

lemma returns_below (hlevel : level ≠ 2) (hnext : (it.tableIters level).next m =
      (none, { it.tableIters level with curIdx := idx }))
    {it' : InternalRangeIter} {pde : RangeItem}
    (hup : Returns m (level + 1) (it.setIter level { it.tableIters level with curIdx := idx })
      (some pde, it')) {out : Option RangeItem × InternalRangeIter}
    (hdown : Returns m level (it'.setIter level (it'.below m level
      (pde, (it'.tableIters (level + 1)).flags pde))) out) :
    Returns m level it out := by
  obtain ⟨bound, hup⟩ := hup
  obtain ⟨bound', hdown⟩ := hdown
  refine ⟨max bound bound' + 1, fun fuel hfuel => ?_⟩
  obtain ⟨fuel, rfl⟩ := Nat.exists_eq_add_of_le' (Nat.le_of_add_left_le hfuel)
  simp only [nextRecursive, hnext, hlevel, if_false, hup fuel (by omega)]
  exact hdown fuel (by omega)

lemma nextRecursive_top (m : Phys) (it : InternalRangeIter) :
    ∃ entry it', Returns m 2 it (entry, it') ∧ Moves m 0 it entry it' := by
  obtain ⟨idx, ⟨hold, hnext, hnew⟩ | ⟨entry, hnext, hitems⟩⟩ := (it.tableIters 2).next_spec m
  · refine ⟨none, it.setIter 2 { it.tableIters 2 with curIdx := idx },
      ⟨1, fun fuel hfuel => ?_⟩, .done (sameBelow_setIter _ _ _) ?_ ?_⟩
    · obtain ⟨fuel, rfl⟩ := Nat.exists_eq_add_of_le' hfuel
      simp [nextRecursive, hnext]
    · rw [pending, TableRangeIter.tagged, hold, map_nil]
    · rw [pending, setIter_self, TableRangeIter.tagged, hnew, map_nil]
  refine ⟨some entry, _, returns_some hnext, .next (sameBelow_setIter _ _ _) ?_⟩
  rw [pending, pending, setIter_self, TableRangeIter.tagged, hitems, map_cons]
  rfl

lemma pending_succ_setIter (hheight : height ≤ 1)
    (it : InternalRangeIter) (iter : TableRangeIter) :
    (it.setIter (1 - height) iter).pending m (height + 1) =
      iter.tagged m ++ (it.pending m height).flatMap fun entry =>
        (it.below m (1 - height) entry).tagged m := by
  rw [pending, setIter_self, pending_setIter (by omega),
    (sameBelow_setIter it (1 - height) iter).below]

lemma moves_current (hheight : height ≤ 1) (hitems : (it.tableIters (1 - height)).items m =
      entry :: { it.tableIters (1 - height) with curIdx := idx }.items m) :
    Moves m (height + 1) it (some entry) (it.setIter (1 - height)
      { it.tableIters (1 - height) with curIdx := idx }) := by
  have hlevel : 2 - (height + 1) = 1 - height := by omega
  refine .next (hlevel ▸ sameBelow_setIter _ _ _) ?_
  rw [pending_succ_setIter hheight, hlevel, setIter_self, pending,
    TableRangeIter.tagged, hitems, map_cons, cons_append]
  rfl

lemma nextRecursive_lower (m : Phys) (hheight : height ≤ 1)
    (hup : ∀ it, ∃ entry it', Returns m (1 - height + 1) it (entry, it') ∧
      Moves m height it entry it') (it : InternalRangeIter) :
    ∃ entry it', Returns m (1 - height) it (entry, it') ∧ Moves m (height + 1) it entry it' := by
  have hlevel : 1 - height ≠ 2 := by omega
  have hlevel' : 2 - (height + 1) = 1 - height := by omega
  have hmono : 2 - (height + 1) ≤ 2 - height := by omega
  generalize hleft : it.pending m height = left
  induction left generalizing it with
  | nil =>
    obtain ⟨idx, ⟨hold, hnext, hnew⟩ | ⟨entry, hnext, hitems⟩⟩ :=
      (it.tableIters (1 - height)).next_spec m
    · obtain ⟨entry, it', hreturns, hmoves⟩ := hup (it.setIter (1 - height)
        { it.tableIters (1 - height) with curIdx := idx })
      cases hmoves with
      | done hsame hpending hpending' =>
        refine ⟨none, it', returns_none hlevel hnext hreturns,
          .done (((sameBelow_setIter _ _ _).mono (Nat.le_of_eq hlevel')).trans
            (hsame.mono hmono)) ?_ ?_⟩
        · rw [pending, TableRangeIter.tagged, hold, hleft]
          rfl
        rw [pending, hsame.iters _ (by omega), setIter_self, TableRangeIter.tagged, hnew, hpending']
        rfl
      | next hsame hpending =>
        rw [pending_setIter (by omega), hleft] at hpending
        cases hpending
    · exact ⟨_, _, returns_some hnext, moves_current hheight hitems⟩
  | cons first rest ih =>
    obtain ⟨idx, ⟨hold, hnext, hnew⟩ | ⟨entry, hnext, hitems⟩⟩ :=
      (it.tableIters (1 - height)).next_spec m
    · obtain ⟨entry, it', hreturns, hmoves⟩ := hup (it.setIter (1 - height)
        { it.tableIters (1 - height) with curIdx := idx })
      cases hmoves with
      | done hsame hpending hpending' =>
        rw [pending_setIter (by omega), hleft] at hpending
        cases hpending
      | @next _ pde hsame hpending =>
        -- go on in the table under the entry
        rw [pending_setIter (by omega), hleft,
          show 2 - height = 1 - height + 1 by omega] at hpending
        obtain ⟨hfirst, hrest⟩ := cons.inj hpending
        obtain ⟨entry', it'', hdown, hmoves'⟩ := ih (it'.setIter (1 - height)
          (it'.below m (1 - height) (pde, (it'.tableIters (1 - height + 1)).flags pde)))
          ((pending_setIter (by omega) _).trans hrest.symm)
        have hsame' := (sameBelow_setIter it (1 - height)
          { it.tableIters (1 - height) with curIdx := idx }).trans (hsame.mono (by omega))
        have hall : (it'.setIter (1 - height) (it'.below m (1 - height)
            (pde, (it'.tableIters (1 - height + 1)).flags pde))).pending m
              (height + 1) = it.pending m (height + 1) := by
          rw [pending_succ_setIter hheight, pending, hleft, hfirst, hrest, TableRangeIter.tagged,
            TableRangeIter.tagged, hold, map_nil, nil_append, flatMap_cons, hsame'.below]
          rfl
        refine ⟨entry', it'', returns_below hlevel hnext hreturns hdown, ?_⟩
        have hstart := hsame'.trans (sameBelow_setIter it' (1 - height) (it'.below m (1 - height)
            (pde, (it'.tableIters (1 - height + 1)).flags pde)))
        cases hmoves' with
        | done hsame'' hold' hnew' =>
          exact .done ((hstart.mono (Nat.le_of_eq hlevel')).trans hsame'') (hall ▸ hold') hnew'
        | next hsame'' hold' =>
          exact .next ((hstart.mono (Nat.le_of_eq hlevel')).trans hsame'') (hall ▸ hold')
    · exact ⟨_, _, returns_some hnext, moves_current hheight hitems⟩

lemma nextRecursive_spec : ∃ entry it', Returns m 0 it (entry, it') ∧ Moves m 2 it entry it' :=
  nextRecursive_lower m le_rfl (nextRecursive_lower m (Nat.zero_le 1) (nextRecursive_top m)) it

lemma nextRecursive_succ (h : it.nextRecursive m fuel level = some out) :
    it.nextRecursive m (fuel + 1) level = some out := by
  induction fuel generalizing it level out with
  | zero => cases h
  | succ fuel ih =>
    rw [nextRecursive] at h ⊢
    cases hnext : (it.tableIters level).next m with
    | mk entry iter =>
      simp only [hnext] at h ⊢
      cases entry with
      | some entry => exact h
      | none =>
        by_cases htop : level = 2
        · simpa only [htop, if_true] using h
        simp only [htop, if_false] at h ⊢
        cases hup : (it.setIter level iter).nextRecursive m fuel (level + 1) with
        | none =>
          rw [hup] at h
          cases h
        | some found =>
          rw [ih hup]
          rw [hup] at h
          obtain ⟨_ | pde, it'⟩ := found
          · exact h
          · exact ih h

lemma Returns.eq (h : Returns m level it out)
    (h' : it.nextRecursive m fuel level = some out') : out' = out := by
  obtain ⟨bound, hbound⟩ := h
  have hmono : ∀ more, it.nextRecursive m (fuel + more) level = some out' := by
    intro more
    induction more with
    | zero => exact h'
    | succ more ih => exact nextRecursive_succ ih
  have hboth := hmono bound
  rw [hbound _ (Nat.le_add_left _ _)] at hboth
  exact (Option.some.inj hboth).symm

end InternalRangeIter

section

variable {m : Phys} {it : InternalRangeIter} {l : List (Nat × PteRef)}

def yielded (entry : RangeItem × Bool × Bool) : Nat × PteRef := (entry.1.va, entry.1.pte)

lemma collects_pending (m : Phys) (it : InternalRangeIter) :
    Collects m it ((it.pending m 2).map yielded) := by
  generalize hleft : it.pending m 2 = left
  induction left generalizing it with
  | nil =>
    obtain ⟨entry, it', ⟨bound, hreturns⟩, hmoves⟩ := InternalRangeIter.nextRecursive_spec
    cases hmoves with
    | done => exact .done (hreturns bound le_rfl)
    | next _ hold =>
      rw [hleft] at hold
      cases hold
  | cons first rest ih =>
    obtain ⟨entry, it', ⟨bound, hreturns⟩, hmoves⟩ := InternalRangeIter.nextRecursive_spec
    cases hmoves with
    | done _ hold =>
      rw [hleft] at hold
      cases hold
    | next _ hold =>
      rw [hleft] at hold
      obtain ⟨rfl, hrest⟩ := cons.inj hold
      exact .next (hreturns bound le_rfl) (ih it' hrest.symm)

lemma Collects.unique (h : Collects m it l) (h' : Collects m it l') : l = l' := by
  induction h generalizing l' with
  | @done _ it _ hnext =>
    obtain ⟨entry, it', hreturns, -⟩ := InternalRangeIter.nextRecursive_spec
    have heq := hreturns.eq hnext
    cases h' with
    | done => rfl
    | next hnext' =>
      have hne := heq.trans (hreturns.eq hnext').symm
      cases hne
  | @next _ it _ _ _ hnext hrest ih =>
    obtain ⟨entry, it', hreturns, -⟩ := InternalRangeIter.nextRecursive_spec
    have heq := hreturns.eq hnext
    cases h' with
    | done hnext' =>
      have hne := heq.trans (hreturns.eq hnext').symm
      cases hne
    | next hnext' hrest' =>
      cases heq.trans (hreturns.eq hnext').symm
      rw [ih hrest']

lemma rangeIter_zero_items (table baseVa startVa endVa : Nat) :
    rangeIter m 0 table baseVa startVa endVa isFirst isLast =
      ((TableRangeIter.new table 0 baseVa startVa endVa isFirst isLast).tagged m).map yielded := by
  rw [rangeIter, TableRangeIter.tagged, TableRangeIter.items, map_map,
    filter_map, filter_map, map_map]
  rfl

lemma rangeIter_succ_items (m : Phys) (level table baseVa startVa endVa : Nat) :
    rangeIter m (level + 1) table baseVa startVa endVa isFirst isLast =
      ((TableRangeIter.new table (level + 1) baseVa startVa endVa isFirst
        isLast).tagged m).flatMap fun entry =>
          rangeIter m level (m.pte entry.1.pte).physicalAddr entry.1.va startVa
            endVa entry.2.1 entry.2.2 := by
  rw [rangeIter, TableRangeIter.tagged, TableRangeIter.items]
  simp only [TableRangeIter.new]
  generalize interval _ _ = idxs
  induction idxs with
  | nil => rfl
  | cons idx idxs ih =>
    rw [flatMap_cons, ih, map_cons, filter_cons]
    simp only [TableRangeIter.item]
    by_cases hvalid : (m.pte ⟨table, idx⟩).isValid = true
    · simp only [hvalid, if_true]
      rfl
    · simp only [hvalid]
      rfl

lemma pending_new (m : Phys) (root startVa endVa : Nat) :
    ((InternalRangeIter.new root startVa endVa).pending m 2).map yielded =
      rangeOfEntries m root startVa endVa := by
  have hdummy : (TableRangeIter.new root 2 0 0 0 true true).tagged m = [] := by
    rw [TableRangeIter.tagged, TableRangeIter.items_of_le (Nat.zero_le _)]
    rfl
  have hiters : (InternalRangeIter.new root startVa endVa).pending m 2 =
      (((TableRangeIter.new root 2 0 startVa endVa true true).tagged m).flatMap
        fun entry => ((InternalRangeIter.new root startVa endVa).below m 1
          entry).tagged m).flatMap fun entry =>
            ((InternalRangeIter.new root startVa endVa).below m 0 entry).tagged m := by
    simp [InternalRangeIter.pending, InternalRangeIter.new, hdummy]
  rw [hiters, rangeOfEntries, rangeIter_succ_items, flatMap_assoc, map_flatMap]
  apply flatMap_congr
  intro entry _
  rw [rangeIter_succ_items, map_flatMap]
  apply flatMap_congr
  intro entry _
  rw [rangeIter_zero_items]
  rfl

lemma collects_iff (m : Phys) (root startVa endVa : Nat) (l : List (Nat × PteRef)) :
    Collects m (.new root startVa endVa) l ↔ l = rangeOfEntries m root startVa endVa := by
  have hcollects := collects_pending m (.new root startVa endVa)
  rw [pending_new] at hcollects
  constructor
  · intro h
    exact h.unique hcollects
  · rintro rfl
    exact hcollects

end
end Redwing.Shared
