import Mathlib.Data.List.Nodup
import Mathlib.Data.List.Perm.Basic
import Mathlib.Data.Finset.Dedup

/-! # Groups by label

Items are put into groups, those of one label together. A grouping can be built one item at a time,
and whichever way it was built, its groups are the same up to their order and the order in them.

* `IsGrouping.alone`, `IsGrouping.join` — one more item.
* `IsGrouping.mem_iff`, `IsGrouping.share_iff` — who is in a group.
* `IsGrouping.toFinset_perm`, `IsGrouping.group_perm` — two groupings of the same items.
-/

namespace Grouping

variable {α κ : Type*} {label : α → κ} {items : List α} {groups : List (List α)}

/-- The groups hold the items, each label in one group. -/
structure IsGrouping (label : α → κ) (items : List α) (groups : List (List α)) : Prop where
  nonempty : [] ∉ groups
  all : groups.flatten.Perm items
  same : ∀ group ∈ groups, ∀ item ∈ group, ∀ other ∈ group, label item = label other
  apart : groups.Pairwise fun group later => ∀ item ∈ group, ∀ other ∈ later, label item ≠ label other

theorem isGrouping_nil (label : α → κ) : IsGrouping label [] [] where
  nonempty := List.not_mem_nil
  all := List.Perm.refl _
  same _ inside := absurd inside List.not_mem_nil
  apart := List.Pairwise.nil

/-! ## One more item -/

theorem IsGrouping.mem_items (grouping : IsGrouping label items groups) {group : List α} (inside : group ∈ groups)
    {item : α} (member : item ∈ group) : item ∈ items :=
  grouping.all.mem_iff.mp (List.mem_flatten.mpr ⟨group, inside, member⟩)

theorem IsGrouping.exists_group (grouping : IsGrouping label items groups) {item : α} (member : item ∈ items) :
    ∃ group ∈ groups, item ∈ group :=
  List.mem_flatten.mp (grouping.all.mem_iff.mpr member)

theorem IsGrouping.alone (grouping : IsGrouping label items groups) {item : α}
    (new : ∀ other ∈ items, label other ≠ label item) :
    IsGrouping label (items ++ [item]) (groups ++ [[item]]) where
  nonempty inside := by
    cases List.mem_append.mp inside with
    | inl old => exact grouping.nonempty old
    | inr isNew => cases List.mem_singleton.mp isNew
  all := by
    rw [List.flatten_append, List.flatten_singleton]
    exact grouping.all.append_right [item]
  same group inside := by
    cases List.mem_append.mp inside with
    | inl old => exact grouping.same group old
    | inr isNew =>
      rw [List.mem_singleton.mp isNew]
      intro first isFirst second isSecond
      rw [List.mem_singleton.mp isFirst, List.mem_singleton.mp isSecond]
  apart := by
    refine List.pairwise_append.mpr ⟨grouping.apart, List.pairwise_singleton _ _, ?_⟩
    intro group inside later isLater first isFirst second isSecond
    rw [List.mem_singleton.mp isLater, List.mem_singleton] at isSecond
    rw [isSecond]
    exact new first (grouping.mem_items inside isFirst)

/-- Where one element takes the place of another, all others were there before. -/
theorem mem_of_replaced {β : Type*} {front back : List β} {former latter element : β}
    (member : element ∈ front ++ latter :: back) : element = latter ∨ element ∈ front ++ former :: back := by
  rcases List.mem_append.mp member with inFront | inRest
  · exact .inr (List.mem_append_left _ inFront)
  · rcases List.mem_cons.mp inRest with isLatter | inBack
    · exact .inl isLatter
    · exact .inr (List.mem_append_right _ (List.mem_cons_of_mem _ inBack))

theorem perm_flatten_join {front back : List (List α)} {group arranged : List α} {item : α}
    (all : (front ++ group :: back).flatten.Perm items) (isArranged : arranged.Perm (group ++ [item])) :
    (front ++ arranged :: back).flatten.Perm (items ++ [item]) := by
  simp only [List.flatten_append, List.flatten_cons] at all ⊢
  calc front.flatten ++ (arranged ++ back.flatten)
      _ |>.Perm (front.flatten ++ (group ++ [item] ++ back.flatten)) :=
        (isArranged.append_right _).append_left _
      _ |>.Perm (front.flatten ++ (group ++ back.flatten ++ [item])) := by
        rw [List.append_assoc, List.append_assoc]
        exact (List.perm_append_comm.append_left _).append_left _
      _ |>.Perm (items ++ [item]) := by
        rw [← List.append_assoc]
        exact all.append_right _

/-- An item with the label of a group joins it; the group may be arranged anew. -/
theorem IsGrouping.join {front back : List (List α)} {group arranged : List α}
    (grouping : IsGrouping label items (front ++ group :: back)) {item other : α} (member : other ∈ group)
    (sameLabel : label other = label item) (isArranged : arranged.Perm (group ++ [item])) :
    IsGrouping label (items ++ [item]) (front ++ arranged :: back) := by
  -- every label in the arranged group was in the group before
  have labels : ∀ first ∈ arranged, label first = label other := by
    intro first isFirst
    cases List.mem_append.mp (isArranged.mem_iff.mp isFirst) with
    | inl old => exact grouping.same group (by simp) first old other member
    | inr isNew => rw [List.mem_singleton.mp isNew, sameLabel]
  obtain ⟨frontApart, restApart, across⟩ := List.pairwise_append.mp grouping.apart
  obtain ⟨groupApart, backApart⟩ := List.pairwise_cons.mp restApart
  refine ⟨?_, perm_flatten_join grouping.all isArranged, ?_, ?_⟩
  · intro inside
    obtain isArrangedGroup | before := mem_of_replaced inside
    · rw [← isArrangedGroup] at isArranged
      exact List.concat_ne_nil _ _ isArranged.nil_eq.symm
    · exact grouping.nonempty before
  · intro group' inside first isFirst second isSecond
    obtain rfl | before := mem_of_replaced inside
    · rw [labels first isFirst, labels second isSecond]
    · exact grouping.same group' before first isFirst second isSecond
  · refine List.pairwise_append.mpr ⟨frontApart, List.pairwise_cons.mpr ⟨?_, backApart⟩, ?_⟩
    · intro later inBack first isFirst second isSecond
      rw [labels first isFirst]
      exact groupApart later inBack other member second isSecond
    · intro earlier inFront later inRest first isFirst second isSecond
      rcases List.mem_cons.mp inRest with rfl | inBack
      · rw [labels second isSecond]
        exact across earlier inFront group List.mem_cons_self first isFirst other member
      · exact across earlier inFront later (List.mem_cons_of_mem _ inBack) first isFirst second isSecond

/-! ## Who is in a group -/

theorem IsGrouping.number_eq {ι : Type*} {numbers : List ι} {content : ι → List α}
    (grouping : IsGrouping label items (numbers.map content)) {number later : ι} (inside : number ∈ numbers)
    (laterInside : later ∈ numbers) {item other : α} (member : item ∈ content number)
    (otherMember : other ∈ content later) (sameLabel : label item = label other) : number = later := by
  obtain ⟨place, bound, rfl⟩ := List.getElem_of_mem inside
  obtain ⟨laterPlace, laterBound, rfl⟩ := List.getElem_of_mem laterInside
  have apart := List.pairwise_iff_getElem.mp (List.pairwise_map.mp grouping.apart)
  rcases lt_trichotomy place laterPlace with before | here | after
  · exact absurd sameLabel (apart place laterPlace bound laterBound before item member other otherMember)
  · simp only [here]
  · exact absurd sameLabel.symm (apart laterPlace place laterBound bound after other otherMember item member)

theorem IsGrouping.eq_of_label (grouping : IsGrouping label items groups) {group later : List α}
    (inside : group ∈ groups) (laterInside : later ∈ groups) {item other : α} (member : item ∈ group)
    (otherMember : other ∈ later) (sameLabel : label item = label other) : group = later := by
  rw [← List.map_id groups] at grouping
  exact grouping.number_eq inside laterInside member otherMember sameLabel

theorem IsGrouping.mem_iff (grouping : IsGrouping label items groups) {group : List α} (inside : group ∈ groups)
    {item : α} (member : item ∈ group) (other : α) : other ∈ group ↔ other ∈ items ∧ label other = label item := by
  constructor
  · exact fun otherMember =>
      ⟨grouping.mem_items inside otherMember, grouping.same group inside other otherMember item member⟩
  · rintro ⟨inItems, sameLabel⟩
    obtain ⟨later, laterInside, inLater⟩ := grouping.exists_group inItems
    rw [grouping.eq_of_label inside laterInside member inLater sameLabel.symm]
    exact inLater

theorem IsGrouping.share_iff (grouping : IsGrouping label items groups) {item other : α} (member : item ∈ items)
    (otherMember : other ∈ items) :
    (∃ group ∈ groups, item ∈ group ∧ other ∈ group) ↔ label item = label other := by
  constructor
  · rintro ⟨group, inside, itemInside, otherInside⟩
    exact grouping.same group inside item itemInside other otherInside
  · intro sameLabel
    obtain ⟨group, inside, itemInside⟩ := grouping.exists_group member
    exact ⟨group, inside, itemInside, (grouping.mem_iff inside itemInside other).mpr ⟨otherMember, sameLabel.symm⟩⟩

/-! ## Two groupings of the same items -/

theorem IsGrouping.nodup_group (grouping : IsGrouping label items groups) (distinct : items.Nodup) {group : List α}
    (inside : group ∈ groups) : group.Nodup := by
  have all := grouping.all.nodup_iff.mpr distinct
  exact (List.nodup_flatten.mp all).1 group inside

theorem IsGrouping.group_perm {others : List α} {otherGroups : List (List α)}
    (grouping : IsGrouping label items groups) (other : IsGrouping label others otherGroups)
    (distinct : items.Nodup) (sameItems : items.Perm others) {group otherGroup : List α} (inside : group ∈ groups)
    (otherInside : otherGroup ∈ otherGroups) (same : ∀ item, item ∈ group ↔ item ∈ otherGroup) :
    group.Perm otherGroup :=
  (List.perm_ext_iff_of_nodup (grouping.nodup_group distinct inside)
    (other.nodup_group (sameItems.nodup_iff.mp distinct) otherInside)).mpr same

variable [DecidableEq α]

theorem IsGrouping.exists_same {others : List α} {otherGroups : List (List α)}
    (grouping : IsGrouping label items groups) (other : IsGrouping label others otherGroups)
    (sameItems : items.Perm others) {group : List α} (inside : group ∈ groups) :
    ∃ otherGroup ∈ otherGroups, otherGroup.toFinset = group.toFinset := by
  obtain ⟨item, member⟩ := List.exists_mem_of_ne_nil group fun empty => grouping.nonempty (empty ▸ inside)
  obtain ⟨otherGroup, otherInside, otherMember⟩ :=
    other.exists_group (sameItems.mem_iff.mp (grouping.mem_items inside member))
  refine ⟨otherGroup, otherInside, ?_⟩
  ext third
  rw [List.mem_toFinset, List.mem_toFinset, grouping.mem_iff inside member, other.mem_iff otherInside otherMember,
    sameItems.mem_iff]

theorem IsGrouping.nodup_toFinset (grouping : IsGrouping label items groups) : (groups.map List.toFinset).Nodup := by
  rw [List.nodup_map_iff_inj_on]
  · intro group inside later laterInside same
    obtain ⟨item, member⟩ := List.exists_mem_of_ne_nil group fun empty => grouping.nonempty (empty ▸ inside)
    have laterMember : item ∈ later := by
      rw [← List.mem_toFinset, ← same, List.mem_toFinset]
      exact member
    exact grouping.eq_of_label inside laterInside member laterMember rfl
  · refine grouping.apart.imp_of_mem ?_
    intro group later inside _ apart same
    obtain ⟨item, member⟩ := List.exists_mem_of_ne_nil group fun empty => grouping.nonempty (empty ▸ inside)
    exact apart item member item (same ▸ member) rfl

theorem IsGrouping.toFinset_perm {others : List α} {otherGroups : List (List α)}
    (grouping : IsGrouping label items groups) (other : IsGrouping label others otherGroups)
    (sameItems : items.Perm others) : (groups.map List.toFinset).Perm (otherGroups.map List.toFinset) := by
  rw [List.perm_ext_iff_of_nodup grouping.nodup_toFinset other.nodup_toFinset]
  intro content
  simp only [List.mem_map]
  constructor
  · rintro ⟨group, inside, rfl⟩
    exact grouping.exists_same other sameItems inside
  · rintro ⟨otherGroup, otherInside, rfl⟩
    exact other.exists_same grouping sameItems.symm otherInside

end Grouping
