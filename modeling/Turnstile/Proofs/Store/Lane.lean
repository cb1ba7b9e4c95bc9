import Turnstile.Proofs.Store.Credential
import Turnstile.Proofs.Store.Failure

/-! What an operation on a key does. The keys share one list and their slots one map, but such an
operation depends only on the key that it looks up and on the slots of that key, and leaves every
other key and its slots as they were. The lane of an id is the key with that id and its slots. -/

namespace Turnstile

/-- What the operations on a key look it up by. -/
def ApiKey.names (a : ApiKey) : String × String := (a.id, a.credential)

structure Lane where
  key : Option ApiKey
  slots : UInt32
deriving DecidableEq

/-! ## Operations on a lane -/

namespace Lane

def enter (key : ApiKey) (n : UInt32) : Except StoreError Reply × Lane :=
  if !key.enabled then (.error .keyDisabled, ⟨key, n⟩)
  else if key.exhausted then (.error .quotaExceeded, ⟨key, n⟩)
  else if key.hasConcurrencyLimit then
    if key.concurrencyLimit ≤ n then (.error .concurrencyExceeded, ⟨key, n⟩)
    else (.ok (.key key), ⟨key, n + 1⟩)
  else (.ok (.key key), ⟨key, n⟩)

def complete (counted : Bool) (key : ApiKey) (n : UInt32) : Except StoreError Reply × Lane :=
  let after := if counted then key.recordUse else key
  let left := if n ≤ 1 then 0 else n - 1
  (.ok (.key after), ⟨after, if key.hasConcurrencyLimit then left else n⟩)

/-- A patch that leaves the credential alone can only fail because that was not a valid one. -/
def edit (patch : ApiKey → ApiKey) (key : ApiKey) (n : UInt32) : Except StoreError Reply × Lane :=
  match checkCredential (patch key).credential with
  | .error refusal => (.error (.ofRefusal refusal), ⟨key, n⟩)
  | .ok () => (.ok (.key (patch key)), ⟨patch key, n⟩)

end Lane

namespace Operation

/-- The operation is one on a key that is there. -/
def onKeys : Operation → Bool
  | .beginRequest _ | .endRequest _ _ | .endRequestById _ _ | .releaseSlots _ | .resetUsage _
  | .deleteKey _ | .updateKey _ _ => true
  | _ => false

/-- What the operation answers about the key that it finds, and what it makes of the lane. -/
def onKey (key : ApiKey) (n : UInt32) : Operation → Except StoreError Reply × Lane
  | .beginRequest _ => Lane.enter key n
  | .endRequest _ counted | .endRequestById _ counted => Lane.complete counted key n
  | .releaseSlots _ => (.ok (.slots n), ⟨key, 0⟩)
  | .resetUsage _ => (.ok (.key key.resetUsage), ⟨key.resetUsage, n⟩)
  | .deleteKey _ => (.ok .done, ⟨none, 0⟩)
  | .updateKey _ patch => Lane.edit patch key n
  | _ => (.error .keyNotFound, ⟨key, n⟩)

/-- If the operation patches the key, it does not give it other names. -/
def KeepsNames (key : ApiKey) : Operation → Prop
  | .updateKey id patch => key.id = Text.trim id → (patch key).names = key.names
  | _ => True

end Operation

namespace InFlight

variable {id : String} {m : InFlight}

theorem count_giveBack_self :
    (m.giveBack id).count id = if m.count id ≤ 1 then 0 else m.count id - 1 := by
  unfold giveBack
  split
  · exact count_remove_self
  · exact count_put_self

end InFlight

namespace Store

variable {s t : Store} {op : Operation} {key c : ApiKey}

def lane (s : Store) (k : String) : Lane := ⟨s.keyWithId? k, s.inFlightOf k⟩

theorem lane_eq {k : String} {a : Option ApiKey} {n : UInt32} (hkey : s.keyWithId? k = a)
    (hslots : s.inFlightOf k = n) : s.lane k = ⟨a, n⟩ := by
  rw [lane, hkey, hslots]

/-- The key that the operation looks up. -/
def lookUp? (s : Store) : Operation → Option ApiKey
  | .beginRequest credential | .endRequest credential _ => s.findKey? credential
  | .endRequestById id _ | .updateKey id _ => s.keyWithId? (Text.trim id)
  | .deleteKey id => s.findKeyById? id
  | .releaseSlots id | .resetUsage id => s.keyWithId? id
  | _ => none

/-- The second store has that lane for the id and otherwise the lanes of the first. A key may be
gone, and those that are left have kept their names and their order. -/
structure Turns (s : Store) (k : String) (lane : Lane) (t : Store) : Prop where
  own : t.lane k = lane
  others : ∀ j, j ≠ k → t.lane j = s.lane j
  names : (t.apiKeys.map ApiKey.names).Sublist (s.apiKeys.map ApiKey.names)

/-- A key gives its place to one with its id, and no other slots than its own change. -/
theorem lanes_of_replaceFirst (hids : (s.apiKeys.map ApiKey.id).Nodup) {test : ApiKey → Bool}
    (hfound : s.apiKeys.find? test = some key) (hid : c.id = key.id)
    (hkeys : t.apiKeys = replaceFirst test c s.apiKeys)
    (hslots : ∀ j, j ≠ key.id → t.inFlightOf j = s.inFlightOf j) :
    t.lane key.id = ⟨c, t.inFlightOf key.id⟩ ∧ ∀ j, j ≠ key.id → t.lane j = s.lane j := by
  have hmap : t.apiKeys = s.apiKeys.map fun a => if a.id = key.id then c else a :=
    hkeys.trans (replaceFirst_eq_map (f := fun _ => c) hids hfound)
  have hfind (j : String) :
      t.keyWithId? j = (s.keyWithId? j).map fun a => if a.id = key.id then c else a := by
    have htest : (fun a : ApiKey => a.id == j) ∘ (fun a => if a.id = key.id then c else a) =
        fun a => a.id == j := by
      funext a
      simp only [Function.comp_apply]
      split
      · rename_i ha
        rw [hid, ha]
      · rfl
    rw [keyWithId?, hmap, List.find?_map, htest]
    rfl
  constructor
  · have hkey := keyWithId?_of_mem hids (List.mem_of_find?_eq_some hfound)
    rw [lane, hfind, hkey, Option.map_some, if_pos rfl]
  · intro j hj
    rw [lane, hfind, hslots j hj, lane]
    cases hold : s.keyWithId? j with
    | none => rfl
    | some a =>
      have ha : a.id = j := Lookup.name_of_find? hold
      rw [Option.map_some, if_neg (ha ▸ hj)]

/-- A key gives its place to one with its names, and no other slots than its own change. -/
theorem turns_of_replaceFirst (hids : (s.apiKeys.map ApiKey.id).Nodup) {test : ApiKey → Bool}
    (hfound : s.apiKeys.find? test = some key) (hnames : c.names = key.names)
    (hkeys : t.apiKeys = replaceFirst test c s.apiKeys)
    (hslots : ∀ j, j ≠ key.id → t.inFlightOf j = s.inFlightOf j) :
    s.Turns key.id ⟨c, t.inFlightOf key.id⟩ t := by
  obtain ⟨hown, hothers⟩ :=
    lanes_of_replaceFirst hids hfound (congrArg Prod.fst hnames) hkeys hslots
  refine ⟨hown, hothers, ?_⟩
  rw [hkeys, map_replaceFirst hfound hnames]

/-- The keys stay as they are. -/
theorem turns_of_sameKeys (hids : (s.apiKeys.map ApiKey.id).Nodup) (hmem : key ∈ s.apiKeys)
    (hkeys : t.apiKeys = s.apiKeys)
    (hslots : ∀ j, j ≠ key.id → t.inFlightOf j = s.inFlightOf j) :
    s.Turns key.id ⟨key, t.inFlightOf key.id⟩ t := by
  have hfound : s.apiKeys.find? (·.id == key.id) = some key := keyWithId?_of_mem hids hmem
  refine turns_of_replaceFirst hids hfound rfl ?_ hslots
  rw [hkeys, replaceFirst_self hfound]

/-- The operation answers as it would on the lane of the key alone, and turns that lane only. -/
structure ActsOn (s : Store) (op : Operation) (key : ApiKey) : Prop where
  answer : s.answer op = (op.onKey key (s.inFlightOf key.id)).1
  turns : s.Turns key.id (op.onKey key (s.inFlightOf key.id)).2 (s.apply op)

/-! ## Operation by operation -/

/-- The checks on a lane are those of an admission. -/
theorem enter_eq (s : Store) (key : ApiKey) :
    Lane.enter key (s.inFlightOf key.id) =
      match s.denial? key with
      | some denial => (.error denial, ⟨key, s.inFlightOf key.id⟩)
      | none =>
        (.ok (.key key),
          ⟨key, if key.hasConcurrencyLimit then s.inFlightOf key.id + 1
            else s.inFlightOf key.id⟩) := by
  simp only [Lane.enter, denial?, inFlightOf]
  by_cases hfull : key.concurrencyLimit ≤ s.inFlight.count key.id <;>
    cases key.enabled <;> cases key.exhausted <;> cases key.hasConcurrencyLimit <;> simp [hfull]

theorem actsOn_beginRequest (hids : (s.apiKeys.map ApiKey.id).Nodup) {credential : String}
    (hfound : s.findKey? credential = some key) : s.ActsOn (.beginRequest credential) key := by
  have hmem := mem_of_findKey? hfound
  have hstays : s.Turns key.id ⟨key, s.inFlightOf key.id⟩ s :=
    turns_of_sameKeys hids hmem rfl fun _ _ => rfl
  have hreserve : s.Turns key.id ⟨key, s.inFlightOf key.id + 1⟩
      { s with inFlight := s.inFlight.reserve key.id } := by
    have hturns := turns_of_sameKeys hids hmem
      (t := { s with inFlight := s.inFlight.reserve key.id })
      rfl fun j hj => InFlight.count_reserve_of_ne hj
    rwa [inFlightOf, InFlight.reserve, InFlight.count_put_self] at hturns
  have hbegins : s.beginRequest credential = s.admission key := by rw [beginRequest_eq, hfound]
  constructor
  · rw [Store.answer, hbegins, Operation.onKey, enter_eq, admission]
    cases s.denial? key <;> rfl
  · rw [apply, hbegins, Operation.onKey, enter_eq, admission]
    cases s.denial? key with
    | some denial => exact hstays
    | none =>
      cases key.hasConcurrencyLimit with
      | true => exact hreserve
      | false => exact hstays

theorem actsOn_completeOn (hids : (s.apiKeys.map ApiKey.id).Nodup) {test : ApiKey → Bool}
    (hfound : s.apiKeys.find? test = some key) (counted : Bool) :
    (s.completeOn test key counted).1.map Reply.key =
        (Lane.complete counted key (s.inFlightOf key.id)).1 ∧
      s.Turns key.id (Lane.complete counted key (s.inFlightOf key.id)).2
        (s.completeOn test key counted).2 := by
  refine ⟨rfl, ?_⟩
  have hnames : (if counted then key.recordUse else key).names = key.names := by
    cases counted <;> rfl
  have hturns := turns_of_replaceFirst (t := (s.completeOn test key counted).2) hids hfound hnames
    rfl ?_
  · have hslots : (s.completeOn test key counted).2.inFlightOf key.id =
        (Lane.complete counted key (s.inFlightOf key.id)).2.slots := by
      simp only [completeOn, Lane.complete, inFlightOf]
      split
      · exact InFlight.count_giveBack_self
      · rfl
    rw [hslots] at hturns
    exact hturns
  · intro j hj
    simp only [completeOn, inFlightOf]
    split
    · exact InFlight.count_giveBack_of_ne hj
    · rfl

theorem actsOn_endRequest (hids : (s.apiKeys.map ApiKey.id).Nodup) {credential : String}
    (hfound : s.findKey? credential = some key) (counted : Bool) :
    s.ActsOn (.endRequest credential counted) key := by
  have hcompletes : s.endRequest credential counted = s.completeOn
      (fun a => sameCredential a.credential (Text.trim credential)) key counted := by
    rw [endRequest_eq, hfound]
  obtain ⟨hanswer, hturns⟩ :=
    actsOn_completeOn hids (findKey?_eq_some_iff.mp hfound).2 counted
  constructor
  · rw [Store.answer, hcompletes]
    exact hanswer
  · rw [apply, hcompletes]
    exact hturns

theorem actsOn_endRequestById (hids : (s.apiKeys.map ApiKey.id).Nodup) {id : String}
    (hfound : s.keyWithId? (Text.trim id) = some key) (counted : Bool) :
    s.ActsOn (.endRequestById id counted) key := by
  have hcompletes : s.endRequestById id counted =
      s.completeOn (·.id == Text.trim id) key counted := by
    simp only [endRequestById, hfound]
  obtain ⟨hanswer, hturns⟩ := actsOn_completeOn hids hfound counted
  constructor
  · rw [Store.answer, hcompletes]
    exact hanswer
  · rw [apply, hcompletes]
    exact hturns

theorem actsOn_releaseSlots (hids : (s.apiKeys.map ApiKey.id).Nodup) {id : String}
    (hfound : s.keyWithId? id = some key) : s.ActsOn (.releaseSlots id) key := by
  have hid : key.id = id := Lookup.name_of_find? hfound
  subst hid
  have hreleases : s.releaseSlots key.id = (.ok (s.inFlight.count key.id),
      { s with inFlight := s.inFlight.remove key.id }) := by
    simp only [releaseSlots, hfound]
  have hturns := turns_of_sameKeys hids (List.mem_of_find?_eq_some hfound)
    (t := { s with inFlight := s.inFlight.remove key.id }) rfl
    fun j hj => InFlight.count_remove_of_ne hj
  constructor
  · rw [Store.answer, hreleases]
    rfl
  · rw [apply, hreleases]
    rwa [inFlightOf, InFlight.count_remove_self] at hturns

theorem actsOn_resetUsage (hids : (s.apiKeys.map ApiKey.id).Nodup) {id : String}
    (hfound : s.keyWithId? id = some key) : s.ActsOn (.resetUsage id) key := by
  have hresets : s.resetUsage id = (.ok key.resetUsage,
      s.withApiKeys (replaceFirst (·.id == id) key.resetUsage s.apiKeys)) := by
    simp only [resetUsage, hfound]
  constructor
  · rw [Store.answer, hresets]
    rfl
  · have hturns : s.Turns key.id ⟨key.resetUsage, s.inFlightOf key.id⟩
        (s.withApiKeys (replaceFirst (·.id == id) key.resetUsage s.apiKeys)) :=
      turns_of_replaceFirst (c := key.resetUsage) (t := s.withApiKeys _) hids hfound rfl rfl
        fun _ _ => rfl
    rw [apply, hresets]
    exact hturns

theorem actsOn_deleteKey {id : String} (hfound : s.findKeyById? id = some key) :
    s.ActsOn (.deleteKey id) key := by
  have hdeletes : s.deleteKey id = (.ok (),
      { s.withApiKeys (s.apiKeys.filter (·.id != key.id)) with
        inFlight := s.inFlight.remove key.id }) := by
    rw [deleteKey_eq, hfound]
  have hgone : (s.apiKeys.filter (·.id != key.id)).find? (·.id == key.id) = none := by
    rw [List.find?_eq_none]
    intro a ha hsame
    exact bne_iff_ne.mp (List.mem_filter.mp ha).2 (beq_iff_eq.mp hsame)
  have hkept (j : String) (hj : j ≠ key.id) :
      (s.apiKeys.filter (·.id != key.id)).find? (·.id == j) = s.apiKeys.find? (·.id == j) := by
    have htest : (fun a : ApiKey => decide ((a.id != key.id) = true ∧ (a.id == j) = true)) =
        (·.id == j) := by
      funext a
      by_cases ha : a.id = j
      · simp [ha, hj]
      · simp [ha]
    rw [List.find?_filter, htest]
  constructor
  · rw [Store.answer, hdeletes]
    rfl
  · rw [apply, hdeletes]
    exact
      { own := lane_eq hgone InFlight.count_remove_self
        others := fun j hj => lane_eq (hkept j hj) (InFlight.count_remove_of_ne hj)
        names := List.filter_sublist.map _ }

/-- Where no two keys share a credential, a patched key that has kept its names is not refused as a
duplicate. -/
theorem actsOn_updateKey (hids : (s.apiKeys.map ApiKey.id).Nodup)
    (hdistinct : s.DistinctCredentials) {id : String}
    (hfound : s.keyWithId? (Text.trim id) = some key) {patch : ApiKey → ApiKey}
    (hkeeps : (Operation.updateKey id patch).KeepsNames key) :
    s.ActsOn (.updateKey id patch) key := by
  have hid : key.id = Text.trim id := Lookup.name_of_find? hfound
  have hnames : (patch key).names = key.names := hkeeps hid
  have hcredential : (patch key).credential = key.credential := congrArg Prod.snd hnames
  have hfree : s.apiKeys.any (fun a => a.id != Text.trim id &&
      a.credential == (patch key).credential) = false := by
    rw [List.any_eq_false]
    intro a ha hboth
    rw [Bool.and_eq_true, bne_iff_ne, beq_iff_eq, hcredential] at hboth
    have hsame := List.inj_on_of_nodup_map hdistinct ha (List.mem_of_find?_eq_some hfound) hboth.2
    exact hboth.1 (hsame ▸ hid)
  have hupdates : s.updateKey id patch =
      match checkCredential (patch key).credential with
      | .error refusal => (.error (.ofRefusal refusal), s)
      | .ok () => (.ok (patch key),
        s.withApiKeys (replaceFirst (·.id == Text.trim id) (patch key) s.apiKeys)) := by
    cases hcheck : checkCredential (patch key).credential <;>
      simp only [updateKey, hfound, hfree, hcheck, Bool.false_eq_true, if_false]
  constructor
  · rw [Store.answer, hupdates, Operation.onKey, Lane.edit]
    split <;> rfl
  · have hturns : s.Turns key.id ⟨patch key, s.inFlightOf key.id⟩
        (s.withApiKeys (replaceFirst (·.id == Text.trim id) (patch key) s.apiKeys)) :=
      turns_of_replaceFirst (t := s.withApiKeys _) hids hfound hnames rfl fun _ _ => rfl
    rw [apply, hupdates, Operation.onKey, Lane.edit]
    split
    · exact turns_of_sameKeys hids (List.mem_of_find?_eq_some hfound) rfl fun _ _ => rfl
    · exact hturns

/-! ## Every operation on a key -/

theorem actsOn_of_lookUp? (hids : (s.apiKeys.map ApiKey.id).Nodup)
    (hdistinct : s.DistinctCredentials) (hfound : s.lookUp? op = some key)
    (hnames : op.KeepsNames key) : s.ActsOn op key := by
  cases op <;> simp only [lookUp?] at hfound
  case beginRequest credential => exact actsOn_beginRequest hids hfound
  case endRequest credential counted => exact actsOn_endRequest hids hfound counted
  case endRequestById id counted => exact actsOn_endRequestById hids hfound counted
  case releaseSlots id => exact actsOn_releaseSlots hids hfound
  case resetUsage id => exact actsOn_resetUsage hids hfound
  case deleteKey id => exact actsOn_deleteKey hfound
  case updateKey id patch => exact actsOn_updateKey hids hdistinct hfound hnames
  all_goals cases hfound

/-- An operation that finds no key says so and changes nothing. -/
theorem unchanged_of_lookUp?_none (hkeys : op.onKeys = true) (hnone : s.lookUp? op = none) :
    s.answer op = .error .keyNotFound ∧ s.apply op = s := by
  cases op <;> simp only [lookUp?] at hnone
  case beginRequest credential => simp [Store.answer, apply, beginRequest_eq, hnone, Except.map]
  case endRequest credential counted =>
    simp [Store.answer, apply, endRequest_eq, hnone, Except.map]
  case endRequestById id counted => simp [Store.answer, apply, endRequestById, hnone, Except.map]
  case releaseSlots id => simp [Store.answer, apply, releaseSlots, hnone, Except.map]
  case resetUsage id => simp [Store.answer, apply, resetUsage, hnone, Except.map]
  case deleteKey id => simp [Store.answer, apply, deleteKey_eq, hnone, Except.map]
  case updateKey id patch => simp [Store.answer, apply, updateKey, hnone, Except.map]
  all_goals cases hkeys

end Store
end Turnstile
