import Mathlib.Data.List.Induction
import Mathlib.Data.List.Perm.Basic
import RelDoc.Pipeline.Grouping
import RelDoc.Proofs.EqualityLaws

namespace RelDoc.Grouping

structure Partitions {α : Type} (r : α → α → Prop) (classes : List (List α)) (items : List α) :
    Prop where
  nonempty : ∀ c ∈ classes, c ≠ []
  perm : classes.flatten.Perm items
  sublist : ∀ c ∈ classes, c.Sublist items
  heads : (classes.filterMap List.head?).Sublist items
  within : ∀ c ∈ classes, c.Pairwise r
  across : classes.Pairwise fun b c => ∀ x ∈ b, ∀ y ∈ c, ¬r x y

section classes

variable {α : Type} {r s : α → α → Prop} {classes before after : List (List α)} {items c : List α}
  {x : α}

theorem partitions_nil (r : α → α → Prop) : Partitions r [] [] where
  nonempty := by simp
  perm := .nil
  sublist := by simp
  heads := .slnil
  within := by simp
  across := .nil

theorem Partitions.add_class (h : Partitions r classes items)
    (hnew : ∀ c ∈ classes, ∀ y ∈ c, ¬r y x) : Partitions r (classes ++ [[x]]) (items ++ [x]) where
  nonempty := List.forall_mem_append.mpr ⟨h.nonempty, by simp⟩
  perm := by simpa using h.perm.append_right [x]
  sublist := List.forall_mem_append.mpr
    ⟨fun c hc => (h.sublist c hc).trans (List.sublist_append_left _ _), by simp⟩
  heads := by simpa using h.heads.append (List.Sublist.refl [x])
  within := List.forall_mem_append.mpr ⟨h.within, by simp⟩
  across := List.pairwise_append.mpr ⟨h.across, by simp, by simpa using hnew⟩

theorem Partitions.add_item (h : Partitions r (before ++ c :: after) items)
    (hbefore : ∀ b ∈ before, ∀ y ∈ b, ¬r y x) (hc : ∀ y ∈ c, r y x)
    (hafter : ∀ b ∈ after, ∀ y ∈ b, ¬r x y) :
    Partitions r (before ++ (c ++ [x]) :: after) (items ++ [x]) := by
  obtain ⟨hne, hperm, hsub, hheads, hwithin, hacross⟩ := h
  simp only [List.forall_mem_append, List.forall_mem_cons] at hne hsub hwithin
  obtain ⟨hsbefore, hsc, hsafter⟩ := hsub
  have hwider {b : List α} (hb : b.Sublist items) : b.Sublist (items ++ [x]) :=
    hb.trans (List.sublist_append_left _ _)
  refine ⟨?_, ?_, ?_, ?_, ?_, ?_⟩
  · simp only [List.forall_mem_append, List.forall_mem_cons]
    exact ⟨hne.1, by simp, hne.2.2⟩
  · -- The new item moves past the later classes.
    have hlast : (before.flatten ++ c ++ (after.flatten ++ [x])).Perm (items ++ [x]) := by
      simpa using hperm.append_right [x]
    simpa using (List.Perm.append_left (before.flatten ++ c) List.perm_append_comm).trans hlast
  · simp only [List.forall_mem_append, List.forall_mem_cons]
    exact ⟨fun b hb => hwider (hsbefore b hb), hsc.append (.refl [x]),
      fun b hb => hwider (hsafter b hb)⟩
  · obtain ⟨y, rest, rfl⟩ := List.exists_cons_of_ne_nil hne.2.1
    exact hwider (by simpa using hheads)
  · simp only [List.forall_mem_append, List.forall_mem_cons]
    refine ⟨hwithin.1, List.pairwise_append.mpr ⟨hwithin.2.1, by simp, by simpa using hc⟩,
      hwithin.2.2⟩
  · obtain ⟨hpbefore, hpafter, hbetween⟩ := List.pairwise_append.mp hacross
    obtain ⟨hcafter, hpafter⟩ := List.pairwise_cons.mp hpafter
    refine List.pairwise_append.mpr ⟨hpbefore, List.pairwise_cons.mpr ⟨?_, hpafter⟩, ?_⟩
    · intro b hb y hy
      rcases List.mem_append.mp hy with hy | hy
      · exact hcafter b hb y hy
      · obtain rfl := List.mem_singleton.mp hy
        exact hafter b hb
    · intro b hb b' hb' y hy z hz
      rcases List.mem_cons.mp hb' with rfl | hb'
      · rcases List.mem_append.mp hz with hz | hz
        · exact hbetween b hb c (by simp) y hy z hz
        · obtain rfl := List.mem_singleton.mp hz
          exact hbefore b hb y hy
      · exact hbetween b hb b' (List.mem_cons_of_mem _ hb') y hy z hz

theorem Partitions.iff_pairwise (hr : ∀ x y, r x y → r y x) (hs : ∀ x y, s x y → s y x)
    (h : Partitions r classes items) :
    Partitions s classes items ↔ items.Pairwise fun x y => s x y ↔ r x y := by
  have hsymm : ∀ {x y : α}, (s x y ↔ r x y) → (s y x ↔ r y x) := by
    intro x y hxy
    exact ⟨fun h => hr x y (hxy.mp (hs y x h)), fun h => hs x y (hxy.mpr (hr y x h))⟩
  rw [← h.perm.pairwise_iff hsymm, List.pairwise_flatten]
  constructor
  · intro h'
    constructor
    · intro c hc
      exact (h'.within c hc).imp₂ (fun _ _ hs hr => iff_of_true hs hr) (h.within c hc)
    · exact h'.across.imp₂
        (fun b c hs hr x hx y hy => iff_of_false (hs x hx y hy) (hr x hx y hy)) h.across
  · rintro ⟨hwithin, hacross⟩
    refine ⟨h.nonempty, h.perm, h.sublist, h.heads, ?_, ?_⟩
    · intro c hc
      exact (hwithin c hc).imp₂ (fun _ _ hiff hr => hiff.mpr hr) (h.within c hc)
    · exact hacross.imp₂
        (fun b c hiff hr x hx y hy hs => hr x hx y hy ((hiff x hx y hy).mp hs)) h.across

end classes

variable {key : Document → Value}

theorem place_cases (k : Value) (d : Document) (groups : List Group) :
    (∀ g ∈ groups, g.1.looseEq k = false) ∧ place k d groups = groups ++ [(k, [d])] ∨
    ∃ before g after, groups = before ++ g :: after ∧ (∀ b ∈ before, b.1.looseEq k = false) ∧
      g.1.looseEq k = true ∧ place k d groups = before ++ (g.1, g.2 ++ [d]) :: after := by
  induction groups with
  | nil => exact Or.inl ⟨by simp, rfl⟩
  | cons g rest ih =>
    rw [place]
    by_cases hg : g.1.looseEq k = true
    · exact Or.inr ⟨[], g, rest, rfl, by simp, hg, if_pos hg⟩
    · rw [if_neg hg]
      have hg := Bool.eq_false_iff.mpr hg
      rcases ih with ⟨hnone, hplace⟩ | ⟨before, found, after, rfl, hbefore, hfound, hplace⟩
      · exact Or.inl ⟨List.forall_mem_cons.mpr ⟨hg, hnone⟩, congrArg _ hplace⟩
      · exact Or.inr ⟨g :: before, found, after, rfl, List.forall_mem_cons.mpr ⟨hg, hbefore⟩,
          hfound, congrArg _ hplace⟩

theorem partition_concat (key : Document → Value) (docs : List Document) (d : Document) :
    partition key (docs ++ [d]) = place (key d) d (partition key docs) :=
  List.foldl_append

def Keyed (key : Document → Value) (g : Group) : Prop :=
  ∃ d rest, g.2 = d :: rest ∧ g.1 = key d

theorem partition_keyed (key : Document → Value) (docs : List Document) :
    ∀ g ∈ partition key docs, Keyed key g := by
  induction docs using List.reverseRecOn with
  | nil => simp [partition]
  | append_singleton docs d ih =>
    rw [partition_concat]
    rcases place_cases (key d) d (partition key docs) with
      ⟨-, hplace⟩ | ⟨before, g, after, hgroups, -, -, hplace⟩
    · rw [hplace]
      exact List.forall_mem_append.mpr ⟨ih, by simpa using ⟨d, [], rfl, rfl⟩⟩
    · rw [hgroups] at ih
      simp only [List.forall_mem_append, List.forall_mem_cons] at ih
      obtain ⟨hbefore, ⟨e, rest, hdocs, hkey⟩, hafter⟩ := ih
      rw [hplace]
      simp only [List.forall_mem_append, List.forall_mem_cons]
      exact ⟨hbefore, ⟨e, rest ++ [d], by simp [hdocs], hkey⟩, hafter⟩

def SameKey (key : Document → Value) (d e : Document) : Prop := (key d).looseEq (key e) = true

theorem SameKey.symm {d e : Document} (h : SameKey key d e) : SameKey key e d :=
  Value.looseEq_symm h

theorem SameKey.trans {d e f : Document} (hde : SameKey key d e) (hef : SameKey key e f) :
    SameKey key d f :=
  Value.looseEq_trans hde hef

theorem Keyed.looseEq_iff {g : Group} (hg : Keyed key g) (hwithin : g.2.Pairwise (SameKey key))
    {e : Document} (he : e ∈ g.2) (d : Document) : g.1.looseEq (key d) = true ↔ SameKey key e d := by
  obtain ⟨first, rest, hdocs, hkey⟩ := hg
  rw [hdocs] at hwithin he
  rw [hkey]
  rcases List.mem_cons.mp he with rfl | he
  · rfl
  · have hfirst : SameKey key first e := (List.pairwise_cons.mp hwithin).1 e he
    exact ⟨hfirst.symm.trans, hfirst.trans⟩

theorem partition_partitions (key : Document → Value) (docs : List Document) :
    Partitions (SameKey key) ((partition key docs).map Prod.snd) docs := by
  induction docs using List.reverseRecOn with
  | nil => exact partitions_nil _
  | append_singleton docs d ih =>
    have hkeyed := partition_keyed key docs
    have hwithin : ∀ g ∈ partition key docs, g.2.Pairwise (SameKey key) :=
      fun g hg => ih.within g.2 (List.mem_map_of_mem hg)
    have hapart : ∀ g ∈ partition key docs, g.1.looseEq (key d) = false →
        ∀ e ∈ g.2, ¬SameKey key e d := by
      intro g hg hne e he hsame
      rw [((hkeyed g hg).looseEq_iff (hwithin g hg) he d).mpr hsame] at hne
      cases hne
    rw [partition_concat]
    rcases place_cases (key d) d (partition key docs) with
      ⟨hnone, hplace⟩ | ⟨before, g, after, hgroups, hbefore, hg, hplace⟩
    · rw [hplace, List.map_append]
      apply ih.add_class
      rintro _ hc e he
      obtain ⟨g, hmem, rfl⟩ := List.mem_map.mp hc
      exact hapart g hmem (hnone g hmem) e he
    · rw [hgroups] at ih hkeyed hwithin hapart
      rw [hplace, List.map_append, List.map_cons]
      rw [List.map_append, List.map_cons] at ih
      have hmem : g ∈ before ++ g :: after := by simp
      have hsame : ∀ e ∈ g.2, SameKey key e d := fun e he =>
        ((hkeyed g hmem).looseEq_iff (hwithin g hmem) he d).mp hg
      apply ih.add_item
      · rintro _ hb e he
        obtain ⟨b, hmem, rfl⟩ := List.mem_map.mp hb
        exact hapart b (List.mem_append_left _ hmem) (hbefore b hmem) e he
      · exact hsame
      · -- A later class with the new key would have the key of this one.
        intro c hc e he hde
        obtain ⟨first, rest, hdocs, -⟩ := hkeyed g hmem
        have hfirst : first ∈ g.2 := by simp [hdocs]
        obtain ⟨-, hacross, -⟩ := List.pairwise_append.mp ih.across
        exact (List.pairwise_cons.mp hacross).1 c hc first hfirst e he
          ((hsame first hfirst).trans hde)

end RelDoc.Grouping
