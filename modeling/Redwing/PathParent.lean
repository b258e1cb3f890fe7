/-
The rest of a path and its parent: `Components::as_path`, `Path::parent` and the
lookups of `fs/pathname.rs`.
-/
import Redwing.Components

namespace Redwing.Mounts

open List

lemma parsed_trimmed (h : front ≠ 0 ∨ trimmed r ≠ []) :
    parsed front (trimmed r) = parsed front r := by
  induction r using reverseRecOn with
  | nil => rfl
  | append_singleton r byte ih =>
    by_cases hbyte : byte = slash
    · subst hbyte
      have htrim : trimmed (r ++ [slash]) = trimmed r := rdropWhile_concat_pos _ _ _ rfl
      rw [htrim] at h ⊢
      have hr : front ≠ 0 ∨ r ≠ [] := h.imp_right fun ht hr => by
        subst hr
        exact ht rfl
      rw [ih h, parsed_append hr, later_nil, append_nil]
    · rw [trimmed, rdropWhile_concat_neg _ _ _ (by simpa using hbyte)]

lemma trimmed_eq_nil_iff : trimmed r = [] ↔ ∀ byte ∈ r, byte = slash := by
  simp [trimmed, rdropWhile_eq_nil_iff]

lemma components_of_trimmed_nil (h : trimmed (byte :: r) = []) :
    byte = slash ∧ components (byte :: r) = [.rootDir] := by
  obtain ⟨rfl, hr⟩ := forall_mem_cons.mp (trimmed_eq_nil_iff.mp h)
  have hrest := @parsed_trimmed 1 r (.inl Nat.one_ne_zero)
  rw [trimmed_eq_nil_iff.mpr hr, parsed_nil, parsed, if_neg Nat.one_ne_zero] at hrest
  exact ⟨rfl, by rw [components_slash, ← hrest]⟩

lemma trimmed_append : trimmed (x ++ r) =
    if trimmed r = [] then trimmed x else x ++ trimmed r := by
  induction r using reverseRecOn with
  | nil => simp [trimmed]
  | append_singleton r byte ih =>
    rw [← append_assoc, trimmed, trimmed]
    by_cases hbyte : byte = slash
    · rw [rdropWhile_concat_pos _ _ _ (by simpa using hbyte),
        rdropWhile_concat_pos _ _ _ (by simpa using hbyte)]
      exact ih
    · rw [rdropWhile_concat_neg _ _ _ (by simpa using hbyte),
        rdropWhile_concat_neg _ _ _ (by simpa using hbyte)]
      simp

lemma components_eq_later_iff (h : r ≠ []) : components r = later r ↔
    ∀ first ∈ (segments r).head?, first ≠ [] ∧ first ≠ dot := by
  obtain ⟨first, rest, heq, hr⟩ := components_of_ne_nil h
  rw [hr, later, heq, head?_cons]
  by_cases hfirst : first = [] ∨ first = dot
  · have hnone : laterComponent first = none := by rw [laterComponent, if_pos hfirst]
    simp only [filterMap_cons, hnone]
    refine iff_of_false (cons_ne_self _ _) fun hall => ?_
    have hne := hall first rfl
    tauto
  · have hsome : laterComponent first = some (firstComponent first) := by
      grind [laterComponent, firstComponent]
    simp only [filterMap_cons, hsome]
    grind

lemma length_trimmed_iff (h : x ≠ []) : x.length ≤ (trimmed x).length - 1 + 1 ↔
    x.length = 1 ∨ x.getLast? ≠ some slash := by
  have hinit := rdropWhile_prefix (· == slash) x
  have hself := rdropWhile_eq_self_iff (p := (· == slash)) (l := x)
  rw [← trimmed] at hinit hself
  have hpos := length_pos_iff.mpr h
  have hle := hinit.length_le
  have hiff : trimmed x = x ↔ x.getLast? ≠ some slash := by
    rw [hself, getLast?_eq_some_getLast h]
    simp [h]
  rw [← hiff]
  constructor
  · intro hge
    by_cases hone : x.length = 1
    · exact .inl hone
    · exact .inr (hinit.eq_of_length (by omega))
  · rintro (hone | heq)
    · omega
    · rw [heq]
      omega

namespace Components

def lastByte (c : Components) : Nat := (trimmed (c.buf.take c.back)).length - 1

/-- `Components::as_path`.  The slice panics if it starts behind its end. -/
def asPath (c : Components) : Option (List UInt8) :=
  if c.back = 0 then some []
  else if c.front ≤ c.lastByte + 1 then some (c.slice c.front (c.lastByte + 1))
  else none

lemma asPath_of_front {c : Components} (h : c.front = 0) :
    ∃ q, c.asPath = some q ∧ components q = c.remaining := by
  have hbetween : c.between = c.buf.take c.back := by simp [between, slice, h]
  rw [asPath, remaining, hbetween, h, parsed, if_pos rfl]
  by_cases hback : c.back = 0
  · exact ⟨[], by simp [hback]⟩
  rw [if_neg hback, if_pos (Nat.zero_le _)]
  refine ⟨_, rfl, ?_⟩
  rw [slice, drop_zero, lastByte]
  by_cases htrim : trimmed (c.buf.take c.back) = []
  · obtain ⟨n, hn⟩ := Nat.exists_eq_succ_of_ne_zero hback
    have hlen := c.back_le
    cases hbuf : c.buf with
    | nil => simp_all
    | cons byte rest =>
      have htake : (byte :: rest).take c.back = byte :: rest.take n := by
        rw [hn]
        rfl
      rw [hbuf] at htrim
      rw [htake] at htrim ⊢
      obtain ⟨rfl, hroot⟩ := components_of_trimmed_nil htrim
      rw [htrim, hroot]
      rfl
  · have hpos := length_pos_iff.mpr htrim
    have hinit : trimmed (c.buf.take c.back) <+: c.buf :=
      ( rdropWhile_prefix _ _).trans ( take_prefix _ _)
    rw [Nat.sub_add_cancel hpos, ← prefix_iff_eq_take.mp hinit]
    exact @parsed_trimmed 0 _ (.inr htrim)

/-- The states in which `as_path` is right: no call of `next` was made, the
slice goes on with a name or with `..`, or nothing is left and the front
cursor does not stand behind a slash, that of the root apart. -/
def Clean (c : Components) : Prop :=
  c.front = 0 ∨ (trimmed c.between ≠ [] ∧ ∀ first ∈ (segments (trimmed c.between)).head?,
        first ≠ [] ∧ first ≠ dot) ∨
    trimmed c.between = [] ∧ (c.front = 1 ∨ (c.buf.take c.front).getLast? ≠ some slash)

lemma asPath_iff (c : Components) :
    (∃ q, c.asPath = some q ∧ components q = c.remaining) ↔ c.Clean := by
  by_cases hfront : c.front = 0
  · exact iff_of_true (asPath_of_front hfront) (.inl hfront)
  have hle := c.front_le
  have hbuf : c.buf.take c.back = c.buf.take c.front ++ c.between := by
    rw [between, slice, ← Nat.min_eq_left hle, ← take_take, Nat.min_eq_left hle, take_append_drop]
  have hlen : (c.buf.take c.front).length = c.front := length_take_of_le (hle.trans c.back_le)
  have hrest := parsed_trimmed (r := c.between) (.inl hfront)
  rw [Clean, asPath, if_neg (by omega), remaining, ← hrest, lastByte, hbuf, trimmed_append]
  by_cases htrim : trimmed c.between = []
  · have hends := length_trimmed_iff (x := c.buf.take c.front) (by rw [← length_pos_iff]; omega)
    have hshort := ( rdropWhile_prefix (· == slash) (c.buf.take c.front)).length_le
    rw [← trimmed] at hshort
    rw [hlen] at hends hshort
    rw [if_pos htrim, htrim, parsed_nil]
    simp only [hfront, false_or, ne_eq, not_true, false_and, true_and]
    rw [← hends]
    constructor
    · rintro ⟨q, hq, -⟩
      by_contra hlt
      rw [if_neg hlt] at hq
      cases hq
    · intro hge
      refine ⟨[], ?_, rfl⟩
      rw [if_pos hge, slice, drop_eq_nil_of_le]
      simp
      omega
  · rw [if_neg htrim, length_append, hlen]
    have hpos := length_pos_iff.mpr htrim
    have hinit := rdropWhile_prefix (· == slash) c.between
    have hshort := hinit.length_le
    have hbetween := c.length_between
    rw [← trimmed] at hinit hshort
    rw [Nat.sub_add_cancel (by omega), if_pos (by omega), c.slice_take (by omega : _ ≤ c.back),
      ← between, ← prefix_iff_eq_take.mp hinit]
    simp [hfront, htrim, parsed, components_eq_later_iff]

/-- After any calls of `next` and `next_back`, `as_path` returns a path of the
components not yet yielded exactly in the clean states. -/
theorem asPath_run_iff (path : List UInt8) (calls : List End) : let yields := (new path).run calls
    (∃ q, yields.rest.asPath = some q ∧ yields.fronts ++ components q ++ yields.backs.reverse =
          components path) ↔
      yields.rest.Clean := by
  dsimp only
  rw [← asPath_iff, ← remaining_new, ← run_spec calls (new path)]
  simp

/-- After the only component of `a/` the slice of `as_path` panics. -/
theorem asPath_panics : ((new [97, slash]).run [.front]).rest.asPath = none := by decide +kernel

end Components

/-- `Path::parent`, `none` if it panics. -/
def parent (path : List UInt8) : Option (Option (List UInt8)) :=
  match (Components.new path).nextBack with
  | (some (.normal _), c) | (some .parentDir, c) => c.asPath.map some
  | _ => some none

def isAbsolute (path : List UInt8) : Bool := path.head? == some slash

lemma isAbsolute_iff (path : List UInt8) :
    isAbsolute path = true ↔ (components path).head? = some .rootDir := by
  cases path with
  | nil => simp [isAbsolute, components]
  | cons byte path =>
    by_cases hbyte : byte = slash
    · subst hbyte
      simp [isAbsolute, components_slash]
    · have hsegments := segments_ne_nil path
      have hne : ∀ segment, firstComponent (byte :: segment) ≠ .rootDir := by
        intro segment
        grind [firstComponent]
      grind [isAbsolute, components, segments]

lemma isAbsolute_eq (h : components path = components q ++ [last]) (hlast : last ≠ .rootDir) :
    isAbsolute path = isAbsolute q := by
  rw [Bool.eq_iff_iff, isAbsolute_iff, isAbsolute_iff, h]
  cases components q <;> simp [hlast]

/-- What `fs/pathname.rs` uses of the file systems and of the task in one
state. -/
structure Lookups (N E : Type) where
  checkName : List UInt8 → Except E Unit
  tryLookup : N → List UInt8 → Except E (Option N)
  root : Except E N
  currentTaskInode : Except E N
  noSuchFileOrDirectory : E

namespace Lookups

variable {N E : Type} (fs : Lookups N E)

def tryIlookup (inode : N) (path : List UInt8) : Except E (Option N) :=
  lookupComponents fs.checkName fs.tryLookup (components path) inode

def okOr : Except E (Option N) → Except E N
  | .ok (some inode) => .ok inode
  | .ok none => .error fs.noSuchFileOrDirectory
  | .error e => .error e

def ilookup (inode : N) (path : List UInt8) : Except E N := fs.okOr (fs.tryIlookup inode path)

def lookup (path : List UInt8) : Except E N :=
  match if isAbsolute path then fs.root else fs.currentTaskInode with
  | .error e => .error e
  | .ok inode => fs.ilookup inode path

/-- `lookup_parent`, `none` if it panics. -/
def lookupParent (path : List UInt8) : Option (Except E N) :=
  match (Components.new path).nextBack with
  | (some .curDir, _) => some (fs.lookup dotDot)
  | (some .parentDir, _) =>
    some (match fs.lookup path with
      | .error e => .error e
      | .ok inode => fs.ilookup inode dotDot)
  | (some (.normal _), c) => c.asPath.map fs.lookup
  | (some .rootDir, _) | (none, _) => some (.error fs.noSuchFileOrDirectory)

def lookupName (inode : N) (name : List UInt8) : Except E N :=
  match fs.checkName name with
  | .error e => .error e
  | .ok () => fs.okOr (fs.tryLookup inode name)

variable {fs}

lemma lookupComponents_append (h : lookupComponents fs.checkName fs.tryLookup before inode =
      .ok (some dir)) (after : List Component) :
    lookupComponents fs.checkName fs.tryLookup (before ++ after) inode =
      lookupComponents fs.checkName fs.tryLookup after dir := by
  induction before generalizing inode with
  | nil =>
    cases h
    rfl
  | cons comp before ih =>
    simp only [cons_append, lookupComponents] at h ⊢
    split at h
    · rename_i hname
      simpa only [hname] using ih h
    rename_i name hname
    split at h
    · cases h
    rename_i hcheck
    split at h
    · cases h
    · cases h
    · rename_i next hnext
      simpa only [hname, hcheck, hnext] using ih h

lemma lookup_eq_ok (h : fs.lookup path = .ok dir) :
    ∃ inode, (if isAbsolute path then fs.root else fs.currentTaskInode) = .ok inode ∧
      fs.tryIlookup inode path = .ok (some dir) := by
  rw [lookup] at h
  split at h
  · cases h
  · rename_i inode hstart
    refine ⟨inode, hstart, ?_⟩
    simp only [ilookup, okOr] at h
    split at h
    · cases h
      assumption
    · cases h
    · cases h

lemma lookup_of_parent (heq : components path = components q ++ [.normal name])
    (h : fs.lookup q = .ok dir) : fs.lookup path = fs.lookupName dir name := by
  obtain ⟨inode, hstart, hfound⟩ := lookup_eq_ok h
  rw [lookup, isAbsolute_eq heq nofun, hstart]
  simp only [ilookup, tryIlookup, heq]
  rw [lookupComponents_append hfound, lookupName]
  simp only [lookupComponents, Component.lookupName]
  cases fs.checkName name with
  | error e => rfl
  | ok =>
    cases fs.tryLookup dir name with
    | error e => rfl
    | ok found => cases found <;> rfl

end Lookups

lemma Components.front_nextBack (c : Components) : c.nextBack.2.front = c.front := by
  fun_induction Components.nextBack c with
  | case1 => rfl
  | case2 => rfl
  | case3 c h trimmedEnd hcomp ih => exact ih

lemma nextBack_new (path : List UInt8) :
    (components path).getLast? = (Components.new path).nextBack.1 ∧
      ∃ q, (Components.new path).nextBack.2.asPath = some q ∧ components path =
          components q ++ (Components.new path).nextBack.1.toList := by
  obtain ⟨heq, hnone⟩ := (Components.new path).nextBack_spec
  obtain ⟨q, hq, hleft⟩ := Components.asPath_of_front
    ((Components.new path).front_nextBack.trans rfl)
  rw [Components.remaining_new] at heq
  refine ⟨?_, q, hq, by rw [heq, hleft]⟩
  rw [heq]
  cases hlast : (Components.new path).nextBack.1 with
  | none => simp [hnone hlast]
  | some last => simp

/-- `parent` cuts off the last component if it is a name or `..`, and looking
up that name in what `lookup_parent` finds is looking up the path. -/
theorem parent_spec {N E : Type} (fs : Lookups N E) (path : List UInt8) :
    (∃ result, parent path = some result ∧ (result.isSome ↔ ∃ last ∈ (components path).getLast?,
        last ≠ .rootDir ∧ last ≠ .curDir) ∧
      ∀ q ∈ result, ∃ last, components path = components q ++ [last]) ∧
    ∃ result, fs.lookupParent path = some result ∧
      ∀ name dir, (components path).getLast? = some (.normal name) →
        result = .ok dir → fs.lookup path = fs.lookupName dir name := by
  obtain ⟨hlast, q, hq, heq⟩ := nextBack_new path
  rw [hlast, parent, Lookups.lookupParent]
  generalize (Components.new path).nextBack = out at *
  obtain ⟨last, c⟩ := out
  match last with
  | none => exact ⟨⟨none, by simp⟩, _, rfl, by simp⟩
  | some .rootDir => exact ⟨⟨none, by simp⟩, _, rfl, by simp⟩
  | some .curDir => exact ⟨⟨none, by simp⟩, _, rfl, by simp⟩
  | some .parentDir => exact ⟨⟨some q, by simpa [hq] using ⟨_, heq⟩⟩, _, rfl, by simp⟩
  | some (.normal name) =>
    refine ⟨⟨some q, by simpa [hq] using ⟨_, heq⟩⟩, fs.lookup q, ?_, ?_⟩
    · simp [hq]
    · rintro name' dir hname hdir
      cases hname
      exact Lookups.lookup_of_parent heq hdir

end Redwing.Mounts
