/-
Radix trees in a memory of tables.  An entry may point to the next table; the
tables of a tree are found along paths of indices, and as long as no table is
found along two paths, a write to one entry changes what one path finds.
-/
import Mathlib.Logic.Function.Basic

namespace Redwing.RadixTables

open Function Option

variable {A I E : Type} [DecidableEq A] [DecidableEq I]

/-- The table at the end of a path, the last index first. -/
def tableAt (next : E → Option A) (m : A → I → E) (root : A) : List I → Option A
  | [] => some root
  | i :: path => (tableAt next m root path).bind fun a => next (m a i)

/-- The entry with an index in the table at the end of a path. -/
def entryAt (next : E → Option A) (m : A → I → E) (root : A) (path : List I) (i : I) : Option E :=
  (tableAt next m root path).map fun a => m a i

/-- Write one entry. -/
def setEntry (m : A → I → E) (a : A) (i : I) (e : E) : A → I → E := update m a (update (m a) i e)

/-- The tables along the paths of at most `depth` indices are among `pages`,
and no two of these paths lead to the same table. -/
structure Tree (next : E → Option A) (m : A → I → E) (root : A) (depth : Nat)
    (pages : List A) : Prop where
  mem : ∀ p a, p.length ≤ depth → tableAt next m root p = some a → a ∈ pages
  separate : ∀ p q a, p.length ≤ depth → q.length ≤ depth →
    tableAt next m root p = some a → tableAt next m root q = some a → p = q

section

variable {next : E → Option A} {m m' : A → I → E} {root a b : A} {depth : Nat}
  {pages pages' : List A} {p q : List I} {i j : I} {e : E}

lemma setEntry_of_ne (h : b ≠ a) : setEntry m a i e b = m b := update_of_ne h _ _

lemma setEntry_self : setEntry m a i e a i = e := by rw [setEntry, update_self, update_self]

lemma setEntry_index (h : j ≠ i) : setEntry m a i e a j = m a j := by
  rw [setEntry, update_self, update_of_ne h]

omit [DecidableEq A] [DecidableEq I] in
/-- The tables depend on the entries above the last level. -/
lemma tableAt_congr (h : ∀ p a, p.length < depth → tableAt next m root p = some a →
      ∀ i, next (m' a i) = next (m a i))
    (hq : q.length ≤ depth) :
    tableAt next m' root q = tableAt next m root q := by
  induction q with
  | nil => rfl
  | cons j q ih =>
    have hlt : q.length < depth := hq
    rw [tableAt, tableAt, ih (Nat.le_of_lt hlt)]
    cases htable : tableAt next m root q with
    | none => rfl
    | some a => exact h q a hlt htable j

section

variable (hm : Tree next m root depth pages)

include hm

omit [DecidableEq A] [DecidableEq I] in
lemma Tree.of_tableAt (htable : ∀ q, q.length ≤ depth →
      tableAt next m' root q = tableAt next m root q)
    (hpages : ∀ a ∈ pages, a ∈ pages') : Tree next m' root depth pages' where
  mem p a hp ha := hpages a (hm.mem p a hp ((htable p hp).symm.trans ha))
  separate p q a hp hq ha ha' :=
    hm.separate p q a hp hq ((htable p hp).symm.trans ha) ((htable q hq).symm.trans ha')

omit [DecidableEq I] in
/-- A page that is not a table of the tree may be overwritten. -/
lemma tableAt_update (ha : a ∉ pages) (content : I → E) (hq : q.length ≤ depth) :
    tableAt next (update m a content) root q =
      tableAt next m root q := by
  refine tableAt_congr ?_ hq
  intro p b hp hb i
  have hne : b ≠ a := fun heq => ha (heq ▸ hm.mem p b (Nat.le_of_lt hp) hb)
  rw [update_of_ne hne]

section

variable (hp : p.length = depth) (ha : tableAt next m root p = some a)

include hp ha

/-- A write to a table of the last level moves no table. -/
lemma tableAt_setLeaf (i : I) (e : E) (hq : q.length ≤ depth) :
    tableAt next (setEntry m a i e) root q = tableAt next m root q := by
  refine tableAt_congr ?_ hq
  intro q' b hq' hb j
  have hne : b ≠ a := by
    rintro rfl
    have hpath := hm.separate q' p b (Nat.le_of_lt hq') (Nat.le_of_eq hp) hb ha
    rw [hpath] at hq'
    omega
  rw [setEntry_of_ne hne]

lemma Tree.setLeaf (i : I) (e : E) : Tree next (setEntry m a i e) root depth pages :=
  hm.of_tableAt (fun _ hq => tableAt_setLeaf hm hp ha i e hq) fun _ h => h

/-- It changes one entry of the last level. -/
lemma entryAt_setLeaf (hq : q.length = depth) : entryAt next (setEntry m a i e) root q j =
    if q = p ∧ j = i then some e else entryAt next m root q j := by
  rw [entryAt, entryAt, tableAt_setLeaf hm hp ha i e (Nat.le_of_eq hq)]
  cases hb : tableAt next m root q with
  | none =>
    rw [if_neg]
    · rfl
    rintro ⟨rfl, -⟩
    rw [ha] at hb
    cases hb
  | some b =>
    by_cases hpath : q = p
    · subst hpath
      cases ha.symm.trans hb
      by_cases hidx : j = i
      · subst hidx
        rw [if_pos ⟨rfl, rfl⟩, map_some, setEntry_self]
      · rw [if_neg fun h => hidx h.2, map_some, setEntry_index hidx]
        rfl
    have hne : b ≠ a := by
      rintro rfl
      exact hpath (hm.separate q p b (Nat.le_of_eq hq) (Nat.le_of_eq hp) hb ha)
    rw [if_neg fun h => hpath h.1, map_some, setEntry_of_ne hne]
    rfl

end
end

end

section

variable {next : E → Option A} {m : A → I → E} {root a new : A} {depth : Nat}
  {pages : List A} {p q : List I} {i j : I} {e : E}
  (hm : Tree next m root depth pages) (hp : p.length < depth)
  (ha : tableAt next m root p = some a) (hnone : next (m a i) = none)
  (hnew : new ∉ pages) (hempty : ∀ j, next (m new j) = none)
  (hnext : next e = some new)

include hm hp ha hnone hnew hempty hnext

/-- Link a new table without entries. -/
lemma tableAt_link (hq : q.length ≤ depth) : tableAt next (setEntry m a i e) root q =
    if q = i :: p then some new else tableAt next m root q := by
  have hane : new ≠ a := fun heq => hnew (heq ▸ hm.mem p a (Nat.le_of_lt hp) ha)
  induction q with
  | nil => rw [if_neg (by simp)]; rfl
  | cons j q ih =>
    have hlt : q.length < depth := hq
    rw [tableAt, ih (Nat.le_of_lt hlt), tableAt]
    by_cases hbelow : q = i :: p
    · -- below the new table there is nothing
      rw [if_pos hbelow, if_neg (by rintro ⟨⟩; simp at hbelow)]
      rw [bind_some, setEntry_of_ne hane, hempty, hbelow, tableAt, ha, bind_some, hnone]
      rfl
    rw [if_neg hbelow]
    cases hb : tableAt next m root q with
    | none =>
      rw [if_neg]
      · rfl
      rintro ⟨⟩
      rw [ha] at hb
      cases hb
    | some b =>
      rw [bind_some, bind_some]
      by_cases hpath : q = p
      · subst hpath
        cases ha.symm.trans hb
        by_cases hidx : j = i
        · subst hidx
          rw [if_pos rfl, setEntry_self, hnext]
        · rw [if_neg fun h => hidx (List.cons.inj h).1, setEntry_index hidx]
      have hne : b ≠ a := by
        rintro rfl
        exact hpath (hm.separate q p b (Nat.le_of_lt hlt) (Nat.le_of_lt hp) hb ha)
      rw [if_neg fun h => hpath (List.cons.inj h).2, setEntry_of_ne hne]

lemma Tree.link : Tree next (setEntry m a i e) root depth (new :: pages) where
  mem q b hq hb := by
    rw [tableAt_link hm hp ha hnone hnew hempty hnext hq] at hb
    split at hb
    · cases hb
      exact List.mem_cons_self ..
    · exact List.mem_cons_of_mem _ (hm.mem q b hq hb)
  separate q q' b hq hq' hb hb' := by
    rw [tableAt_link hm hp ha hnone hnew hempty hnext hq] at hb
    rw [tableAt_link hm hp ha hnone hnew hempty hnext hq'] at hb'
    split at hb
    · split at hb'
      · rename_i hpath hpath'
        rw [hpath, hpath']
      · cases hb
        exact absurd (hm.mem q' _ hq' hb') hnew
    split at hb'
    · cases hb'
      exact absurd (hm.mem q _ hq hb) hnew
    · exact hm.separate q q' b hq hq' hb hb'

/-- It adds the entries of the new table and changes no other entry of the last
level. -/
lemma entryAt_link (hq : q.length = depth) : entryAt next (setEntry m a i e) root q j =
    if q = i :: p then some (m new j) else entryAt next m root q j := by
  have hane : new ≠ a := fun heq => hnew (heq ▸ hm.mem p a (Nat.le_of_lt hp) ha)
  rw [entryAt, tableAt_link hm hp ha hnone hnew hempty hnext (Nat.le_of_eq hq)]
  split
  · rw [map_some, setEntry_of_ne hane]
  rw [entryAt]
  cases hb : tableAt next m root q with
  | none => rfl
  | some b =>
    have hne : b ≠ a := by
      rintro rfl
      have hpath := hm.separate q p b (Nat.le_of_eq hq) (Nat.le_of_lt hp) hb ha
      rw [hpath] at hq
      omega
    rw [map_some, setEntry_of_ne hne]
    rfl

end
end Redwing.RadixTables
