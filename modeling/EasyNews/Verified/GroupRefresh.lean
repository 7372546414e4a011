import EasyNews.ReaderCommands
import EasyNews.Library.KeyedRecords

/-! # Refreshing the groups

`NewsReader_groups` puts every group it is delivered into the record of the group's name. The
records are keyed by name, so a list that arrives in any number of pieces leaves the same records.
-/

namespace EasyNews.Verified.GroupRefresh

open KeyedRecords ListGroupsCommand

/-- What a delivered group makes of the record of its name. -/
def refresh (written : NewsGroup × Drawn) (old : Option NewsGroup) : NewsGroup :=
  { old.getD { id := some written.2.uuidString, name := written.1.name } with
    first := written.1.first
    last := written.1.last
    canPost := written.1.canPost
    updated := some written.2.updated }

theorem writeGroup_groups (realm : Realm) (written : NewsGroup × Drawn) :
    (writeGroup realm written).groups =
        upsert NewsGroup.name written.1.name (refresh written) realm.groups ∧
      (writeGroup realm written).articles = realm.articles := by
  simp only [writeGroup, Realm.findOrCreateGroup, Realm.findGroupByName, Realm.findGroup, upsert]
  cases realm.groups.findIdx? (·.name = written.1.name) with
  | none =>
    refine ⟨?_, rfl⟩
    dsimp only [Realm.modifyGroup]
    rw [List.modify_eq_take_cons_drop (by simp)]
    simp [refresh]
  | some place => exact ⟨rfl, rfl⟩

theorem writeGroups_groups (realm : Realm) (written : List (NewsGroup × Drawn)) :
    (writeGroups realm written).groups =
        upserts NewsGroup.name (·.1.name) refresh written realm.groups ∧
      (writeGroups realm written).articles = realm.articles := by
  induction written generalizing realm with
  | nil => exact ⟨rfl, rfl⟩
  | cons group written inductionHypothesis =>
    obtain ⟨groups, articles⟩ := inductionHypothesis (writeGroup realm group)
    rw [(writeGroup_groups realm group).1] at groups
    rw [(writeGroup_groups realm group).2] at articles
    exact ⟨groups, articles⟩

def deliverGroups (deliveries : List (List NewsGroup)) (command : ListGroupsCommand) : ListGroupsCommand :=
  deliveries.foldl (fun command groups => command.newsReaderGroups groups) command

theorem draw_append (command : ListGroupsCommand) (front back : List NewsGroup) :
    command.draw (front ++ back) =
      command.draw front ++ { command with drawn := command.drawn + front.length }.draw back := by
  simp [draw, List.zipIdx_append]

theorem deliverGroups_realm (deliveries : List (List NewsGroup)) (command : ListGroupsCommand) :
    (deliverGroups deliveries command).rbox.realm =
      writeGroups command.rbox.realm (command.draw deliveries.flatten) := by
  induction deliveries generalizing command with
  | nil => rfl
  | cons groups deliveries inductionHypothesis =>
    rw [deliverGroups, List.foldl_cons, ← deliverGroups, inductionHypothesis, List.flatten_cons, draw_append,
      writeGroups, writeGroups, List.foldl_append]
    rfl

theorem draw_map_fst (command : ListGroupsCommand) (groups : List NewsGroup) :
    (command.draw groups).map Prod.fst = groups := by
  simp [draw, Function.comp_def]

/-! ## The refreshed store -/

/-- Every delivered group has been put into the record of its name, which is new or has kept its
    id and its articles. -/
structure Upserted (before : Realm) (delivered : List NewsGroup) (after : Realm) : Prop where
  unique : (after.groups.map NewsGroup.name).Nodup
  names : ∀ name, name ∈ after.groups.map NewsGroup.name ↔
    name ∈ before.groups.map NewsGroup.name ∨ name ∈ delivered.map NewsGroup.name
  kept : ∀ (group : GroupRef) record, before.groups[group]? = some record →
    ∃ later, after.groups[group]? = some later ∧ later.name = record.name ∧ later.id = record.id ∧
      later.articles = record.articles
  untouched : ∀ (group : GroupRef) record, before.groups[group]? = some record →
    record.name ∉ delivered.map NewsGroup.name → after.groups[group]? = some record
  last : ∀ front group back, delivered = front ++ group :: back → group.name ∉ back.map NewsGroup.name →
    ∃ record ∈ after.groups, record.name = group.name ∧ record.first = group.first ∧
      record.last = group.last ∧ record.canPost = group.canPost
  articles : after.articles = before.articles

/-- A record without the values that are drawn: its id, and when it was updated. -/
def undrawn (record : NewsGroup) : NewsGroup := { record with id := none, updated := none }

theorem name_refresh (written : NewsGroup × Drawn) (record : NewsGroup) :
    (refresh written (some record)).name = record.name := rfl

theorem foldl_refresh_keeps (written : List (NewsGroup × Drawn)) (record : NewsGroup) :
    let later := written.foldl (fun record written => refresh written (some record)) record
    later.name = record.name ∧ later.id = record.id ∧ later.articles = record.articles := by
  induction written generalizing record with
  | nil => exact ⟨rfl, rfl, rfl⟩
  | cons group written inductionHypothesis => exact inductionHypothesis (refresh group (some record))

theorem writeGroups_upserted {realm : Realm} (unique : (realm.groups.map NewsGroup.name).Nodup)
    (written : List (NewsGroup × Drawn)) :
    Upserted realm (written.map Prod.fst) (writeGroups realm written) := by
  obtain ⟨groups, articles⟩ := writeGroups_groups realm written
  have starts : ∀ written : NewsGroup × Drawn, (refresh written none).name = written.1.name := fun _ => rfl
  have keys : (written.map Prod.fst).map NewsGroup.name = written.map (·.1.name) := by
    rw [List.map_map]
    rfl
  refine ⟨?_, ?_, ?_, ?_, ?_, articles⟩
  · rw [groups]
    exact nodup_upserts name_refresh starts unique written
  · intro name
    rw [groups, keys]
    exact mem_keys_upserts name_refresh starts unique written
  · intro group record here
    rw [groups, getElem?_upserts name_refresh starts unique here]
    exact ⟨_, rfl, foldl_refresh_keeps _ record⟩
  · intro group record here unnamed
    rw [keys] at unnamed
    have none : written.filter (·.1.name = record.name) = [] := by
      rw [List.filter_eq_nil_iff]
      intro other inside
      rw [decide_eq_true_eq]
      intro same
      exact unnamed (same ▸ List.mem_map_of_mem inside)
    rw [groups, getElem?_upserts name_refresh starts unique here, none]
    rfl
  · intro front group back split last
    obtain ⟨writtenFront, rest, rfl, -, isRest⟩ := List.map_eq_append_iff.mp split
    obtain ⟨request, writtenBack, rfl, rfl, rfl⟩ := List.map_eq_cons_iff.mp isRest
    rw [List.map_map] at last
    obtain ⟨old, ofName, made⟩ := last_upserts name_refresh starts unique writtenFront writtenBack request last
    rw [groups]
    refine ⟨_, made, ?_, rfl, rfl, rfl⟩
    cases old with
    | none => rfl
    | some record => exact ofName record rfl

/-- But for the values drawn, the records depend on the groups that were written. -/
theorem writeGroups_undrawn {realm : Realm} {written other : List (NewsGroup × Drawn)}
    (same : written.map Prod.fst = other.map Prod.fst) :
    (writeGroups realm written).groups.map undrawn = (writeGroups realm other).groups.map undrawn := by
  let put (group : NewsGroup) (old : Option NewsGroup) : NewsGroup :=
    { old.getD { name := group.name } with
      id := none, first := group.first, last := group.last, canPost := group.canPost, updated := none }
  have projected : ∀ written : List (NewsGroup × Drawn), (writeGroups realm written).groups.map undrawn =
      upserts NewsGroup.name NewsGroup.name put (written.map Prod.fst) (realm.groups.map undrawn) := by
    intro written
    rw [(writeGroups_groups realm written).1]
    apply map_upserts
    · exact fun _ => rfl
    · exact fun _ => rfl
    · intro request old
      cases old <;> rfl
  rw [projected, projected, same]

/-- However the delivered groups are split, and whatever ids and dates are drawn. -/
theorem groups_upserted (command : ListGroupsCommand)
    (unique : (command.rbox.realm.groups.map NewsGroup.name).Nodup) (deliveries : List (List NewsGroup)) :
    Upserted command.rbox.realm deliveries.flatten (deliverGroups deliveries command).rbox.realm ∧
      ∀ (other : ListGroupsCommand) (split : List (List NewsGroup)),
        other.rbox.realm = command.rbox.realm → split.flatten = deliveries.flatten →
          (deliverGroups split other).rbox.realm.groups.map undrawn =
            (deliverGroups deliveries command).rbox.realm.groups.map undrawn := by
  constructor
  · rw [deliverGroups_realm]
    have upserted := writeGroups_upserted unique (command.draw deliveries.flatten)
    rw [draw_map_fst] at upserted
    exact upserted
  · intro other split sameRealm sameGroups
    rw [deliverGroups_realm, deliverGroups_realm, sameRealm, sameGroups]
    apply writeGroups_undrawn
    rw [draw_map_fst, draw_map_fst]

/-- One group is known, and is delivered twice; the other one is new. -/
def oneKnown : ListGroupsCommand where
  rbox := { realm := { groups := [{ id := some "A".toList, name := "alt.a".toList, articles := [0] }], articles := [] } }
  supply place := ⟨Nat.toDigits 10 place, 0, place⟩

def twoPieces : List (List NewsGroup) :=
  [[{ name := "alt.a".toList, last := some 7 }, { name := "alt.b".toList }],
    [{ name := "alt.a".toList, last := some 9 }]]

theorem groups_upserted_two_pieces :
    Upserted oneKnown.rbox.realm twoPieces.flatten (deliverGroups twoPieces oneKnown).rbox.realm :=
  (groups_upserted oneKnown (by decide) twoPieces).1

end EasyNews.Verified.GroupRefresh
