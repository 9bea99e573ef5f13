import Hueplusplus.Utils

/-!
# Which replies to a PUT pass the validation

A reply should confirm what was requested in every member of every success object. The
inner loop of `validatePUTReply` overwrites its flag for each member and never stops, so
only the last member of a success object decides.
-/

namespace Hueplusplus.Utils

/-- The path with a slash at its end. -/
def withSlash (path : String) : String :=
  if path.toList.getLast? = some '/' then path else path ++ "/"

/-- A pair of numbers. -/
def IsPair (value : Json) : Prop := ∃ x y, value = .arr [.num x, .num y]

/-- Both coordinates are near each other. -/
def NearPairs (near : ℚ → ℚ → Prop) (requested value : Json) : Prop :=
  ∃ x y x' y', requested = .arr [.num x, .num y] ∧ value = .arr [.num x', .num y'] ∧
    near x x' ∧ near y y'

/-- The member of a success object confirms a member of the request, to what is near for `xy`. -/
def Confirms (near : ℚ → ℚ → Prop) (path : String) (request : Object)
    (member : String × Json) : Prop :=
  ∃ key requested, member.1 = withSlash path ++ key ∧ request.find? key = some requested ∧
    if key = "xy" then NearPairs near requested member.2
    else requested = member.2 ∨ member.2 = .str "Updated."

/-- For other attributes than `xy` it does not matter what is near. -/
theorem Confirms.of_not_xy {near near' : ℚ → ℚ → Prop} {path : String} {request : Object}
    {member : String × Json} (confirms : Confirms near path request member)
    (other : member.1 ≠ withSlash path ++ "xy") : Confirms near' path request member := by
  obtain ⟨key, requested, starts, asked, value⟩ := confirms
  have notXY : key ≠ "xy" := by
    rintro rfl
    exact other starts
  rw [if_neg notXY] at value
  exact ⟨key, requested, starts, asked, by rwa [if_neg notXY]⟩

/-- The numbers agree to 4 decimal places. -/
def Within (x y : ℚ) : Prop := |x - y| ≤ 1 / 10000

/-- Single precision takes the numbers for equal. -/
def Equals (x y : ℚ) : Prop := floatEquals x y = true

/-- The entry has a success object, and `p` holds of its members. -/
def Succeeds (p : List (String × Json) → Prop) (entry : Json) : Prop :=
  ∃ members, entry.find? "success" = some (.obj members) ∧ p members

/-- Every member of every entry confirms the request. -/
def ConfirmsRequest (path : String) (request : Object) (entries : List Json) : Prop :=
  entries ≠ [] ∧
    ∀ entry ∈ entries,
      Succeeds (fun members => ∀ m ∈ members, Confirms Within path request m) entry

/-- The last member of each success object decides about all of its members, and single
precision about `xy`. -/
structure LastMembersDecide (path : String) (request : Object) (entries : List Json) : Prop where
  /-- No unconfirmed member is hidden by later ones. -/
  others : (∀ entry ∈ entries,
      Succeeds (fun members => ∀ m ∈ members.getLast?, Confirms Equals path request m) entry) →
    ∀ entry ∈ entries,
      Succeeds (fun members => ∀ m ∈ members, Confirms Within path request m) entry
  /-- No coordinate is at the edge of what is near. -/
  edge : (∀ entry ∈ entries,
      Succeeds (fun members => ∀ m ∈ members, Confirms Within path request m) entry) →
    ∀ entry ∈ entries,
      Succeeds (fun members => ∀ m ∈ members.getLast?, Confirms Equals path request m) entry

/-- A list of objects whose success members are objects, with pairs of numbers as values of
`xy` on both sides. -/
structure WellFormedReply (path : String) (request : Object) (entries : List Json) : Prop where
  objects : ∀ entry ∈ entries, ∃ fields, entry = .obj fields
  successes : ∀ entry ∈ entries, ∀ success, entry.find? "success" = some success →
    ∃ members, success = .obj members
  requestedPair : ∀ requested, request.find? "xy" = some requested → IsPair requested
  confirmedPair : ∀ entry ∈ entries, ∀ members, entry.find? "success" = some (.obj members) →
    ∀ m ∈ members, m.1 = withSlash path ++ "xy" → IsPair m.2

theorem pathAppend_eq {path : String} (nonempty : path ≠ "") :
    pathAppend path = .ok (withSlash path) := by
  rw [pathAppend, withSlash]
  cases last : path.toList.getLast? with
  | none =>
      rw [List.getLast?_eq_none_iff, String.toList_eq_nil_iff] at last
      exact absurd last nonempty
  | some c =>
      by_cases slash : c = '/'
      · subst slash
        rfl
      · simp [slash]

theorem dropStart?_eq_some_iff {start s rest : String} :
    dropStart? start s = some rest ↔ s = start ++ rest := by
  rw [dropStart?]
  constructor
  · intro dropped
    split at dropped
    · rename_i isPrefix
      rw [List.isPrefixOf_iff_prefix] at isPrefix
      obtain ⟨after, split⟩ := isPrefix
      rw [← split, List.drop_left, Option.some.injEq] at dropped
      apply String.toList_injective
      rw [String.toList_append, ← split, ← dropped, String.toList_ofList]
    · simp at dropped
  · rintro rfl
    simp [String.toList_append]

@[simp] theorem pairEquals_pairs (x y x' y' : ℚ) :
    pairEquals (Json.arr [.num x, .num y]).elem (Json.arr [.num x', .num y']).elemOrNull =
      .ok (floatEquals x x' && floatEquals y y') := by
  cases close : floatEquals x x' <;>
    simp [pairEquals, Json.elem, Json.elemOrNull, Json.getFloat, close]

theorem pairEquals_iff {requested value : Json} (first : IsPair requested)
    (second : IsPair value) :
    ∃ flag, pairEquals requested.elem value.elemOrNull = .ok flag ∧
      (flag = true ↔ NearPairs Equals requested value) := by
  obtain ⟨x, y, rfl⟩ := first
  obtain ⟨x', y', rfl⟩ := second
  refine ⟨_, pairEquals_pairs x y x' y', ?_⟩
  rw [Bool.and_eq_true]
  constructor
  · rintro ⟨closeX, closeY⟩
    exact ⟨x, y, x', y', rfl, rfl, closeX, closeY⟩
  · rintro ⟨_, _, _, _, ⟨⟩, ⟨⟩, closeX, closeY⟩
    exact ⟨closeX, closeY⟩

/-- The flag of a member says whether it is confirmed. -/
theorem validateMember_spec {path : String} {request : Object} {m : String × Json}
    (requestedPair : ∀ requested, request.find? "xy" = some requested → IsPair requested)
    (confirmedPair : m.1 = withSlash path ++ "xy" → IsPair m.2) :
    ∃ flag, validateMember (withSlash path) request.toJson (some m.1) m.2 = .ok flag ∧
      (flag = true ↔ Confirms Equals path request m) := by
  have found : ∀ key, request.toJson.find? key = request.find? key := fun key => rfl
  unfold validateMember
  cases dropped : dropStart? (withSlash path) m.1 with
  | none =>
      refine ⟨false, by simp only [dropped], ?_⟩
      rw [Bool.false_eq_true, false_iff]
      rintro ⟨key, _, starts, -⟩
      rw [dropStart?_eq_some_iff.mpr starts] at dropped
      exact absurd dropped (by simp)
  | some key =>
      have starts := dropStart?_eq_some_iff.mp dropped
      have unique : ∀ {key'}, m.1 = withSlash path ++ key' → key' = key := by
        intro key' starts'
        rw [dropStart?_eq_some_iff.mpr starts'] at dropped
        exact Option.some.inj dropped
      simp only [dropped, found]
      cases asked : request.find? key with
      | none =>
          refine ⟨false, rfl, ?_⟩
          rw [Bool.false_eq_true, false_iff]
          rintro ⟨key', requested, starts', asked', -⟩
          rw [unique starts', asked] at asked'
          exact absurd asked' (by simp)
      | some requested =>
          have confirmed : Confirms Equals path request m ↔
              if key = "xy" then NearPairs Equals requested m.2
              else requested = m.2 ∨ m.2 = .str "Updated." := by
            constructor
            · rintro ⟨key', requested', starts', asked', value⟩
              obtain rfl := unique starts'
              rw [asked, Option.some.injEq] at asked'
              rwa [asked']
            · intro value
              exact ⟨key, requested, starts, asked, value⟩
          rw [confirmed]
          by_cases isXY : key = "xy"
          · subst isXY
            simp only [if_true]
            exact pairEquals_iff (requestedPair requested asked) (confirmedPair starts)
          · simp only [if_neg isXY]
            exact ⟨_, rfl, by simp⟩

/-- A flag that each element overwrites ends as the flag of the last one. -/
theorem foldlM_overwrite {α : Type} {f : α → Except Exception Bool} {p : α → Prop}
    {l : List α} (h : ∀ a ∈ l, ∃ flag, f a = .ok flag ∧ (flag = true ↔ p a)) (start : Bool) :
    ∃ flag, l.foldlM (fun _ a => f a) start = .ok flag ∧
      (flag = true ↔ (l = [] → start = true) ∧ ∀ a ∈ l.getLast?, p a) := by
  induction l generalizing start with
  | nil => exact ⟨start, rfl, by simp⟩
  | cons a l ih =>
      obtain ⟨first, computes, iff⟩ := h a List.mem_cons_self
      obtain ⟨flag, rest, last⟩ := ih (fun b member => h b (List.mem_cons_of_mem a member)) first
      refine ⟨flag, by rw [List.foldlM_cons, computes, Except.ok_bind, rest], ?_⟩
      rw [last]
      cases l with
      | nil => simp [iff]
      | cons b l => simp [List.getLast?_cons_cons]

/-- The flag of an entry says whether the last member of its success object is confirmed. -/
theorem validateEntry_spec {path : String} {request : Object} {entry : Json}
    (requestedPair : ∀ requested, request.find? "xy" = some requested → IsPair requested)
    (success : ∀ success, entry.find? "success" = some success → ∃ members, success = .obj members)
    (confirmedPair : ∀ members, entry.find? "success" = some (.obj members) →
      ∀ m ∈ members, m.1 = withSlash path ++ "xy" → IsPair m.2) :
    ∃ flag, validateEntry (withSlash path) request.toJson entry = .ok flag ∧
      (flag = true ↔
        Succeeds (fun members => ∀ m ∈ members.getLast?,
          Confirms Equals path request m) entry) := by
  rw [validateEntry]
  cases found : entry.find? "success" with
  | none =>
      refine ⟨false, rfl, ?_⟩
      simp [Succeeds, found]
  | some object =>
      obtain ⟨members, rfl⟩ := success object found
      have each : ∀ m ∈ members, ∃ flag,
          validateMember (withSlash path) request.toJson (some m.1) m.2 = .ok flag ∧
            (flag = true ↔ Confirms Equals path request m) := fun m member =>
        validateMember_spec requestedPair (confirmedPair members found m member)
      obtain ⟨flag, computes, last⟩ := foldlM_overwrite each true
      refine ⟨flag, ?_, ?_⟩
      · simp only [Json.items, List.foldlM_map]
        exact computes
      · simp [last, Succeeds, found]

/-- The loop stops at the first entry that is not confirmed. -/
theorem validateEntries_spec {path : String} {request : Object} {entries : List Json}
    {p : Json → Prop} (start : Bool)
    (h : ∀ entry ∈ entries, ∃ flag, validateEntry path request.toJson entry = .ok flag ∧
      (flag = true ↔ p entry)) :
    ∃ flag, validateEntries path request.toJson start entries = .ok flag ∧
      (flag = true ↔ (entries = [] → start = true) ∧ ∀ entry ∈ entries, p entry) := by
  induction entries generalizing start with
  | nil => exact ⟨start, rfl, by simp⟩
  | cons entry entries ih =>
      obtain ⟨first, computes, iff⟩ := h entry List.mem_cons_self
      simp only [validateEntries, computes, Except.ok_bind]
      cases first with
      | false =>
          refine ⟨false, rfl, ?_⟩
          simp only [Bool.false_eq_true, false_iff] at iff ⊢
          rintro ⟨-, all⟩
          exact iff (all entry List.mem_cons_self)
      | true =>
          obtain ⟨flag, rest, later⟩ :=
            ih true fun e member => h e (List.mem_cons_of_mem entry member)
          refine ⟨flag, rest, ?_⟩
          simp [later, iff.mp rfl]

/-- A reply of this form is accepted exactly if the last member of every success object is
confirmed. -/
theorem validatePUTReply_iff {path : String} {request : Object} {entries : List Json}
    (nonempty : path ≠ "") (formed : WellFormedReply path request entries) :
    validatePUTReply path request.toJson (.arr entries) = .ok true ↔
      entries ≠ [] ∧ ∀ entry ∈ entries,
        Succeeds (fun members => ∀ m ∈ members.getLast?, Confirms Equals path request m) entry := by
  have each := fun entry member => validateEntry_spec formed.requestedPair
    (formed.successes entry member) (formed.confirmedPair entry member)
  obtain ⟨flag, computes, iff⟩ := validateEntries_spec false each
  have values : (Json.arr entries).items.map Prod.snd = entries := by
    simp [Json.items, Function.comp_def]
  simp only [validatePUTReply, pathAppend_eq nonempty, Except.ok_bind, values, computes]
  rw [Except.ok.injEq, iff]
  simp

/-- A PUT reply passes the validation exactly if it confirms the request, under exactly the
condition that the last members of the success objects decide about all of them. -/
theorem validatePUTReply_exact_iff {path : String} {request : Object} {entries : List Json}
    (nonempty : path ≠ "") (formed : WellFormedReply path request entries) :
    (validatePUTReply path request.toJson (.arr entries) = .ok true ↔
      ConfirmsRequest path request entries) ↔ LastMembersDecide path request entries := by
  rw [validatePUTReply_iff nonempty formed]
  rw [ConfirmsRequest]
  constructor
  · intro exact
    have nothing : entries = [] → ∀ entry, entry ∉ entries :=
      fun empty _ => empty ▸ List.not_mem_nil
    by_cases empty : entries = []
    · exact ⟨fun _ entry member => absurd member (nothing empty entry),
        fun _ entry member => absurd member (nothing empty entry)⟩
    · exact ⟨fun last => (exact.mp ⟨empty, last⟩).2, fun all => (exact.mpr ⟨empty, all⟩).2⟩
  · intro decide
    exact ⟨fun ⟨any, last⟩ => ⟨any, decide.others last⟩,
      fun ⟨any, all⟩ => ⟨any, decide.edge all⟩⟩

/-- A request for a brightness of 100 in a light that is on. -/
def brightnessRequest : Object :=
  OrderedMap.ofList [("bri", .num 100), ("on", .bool true)]

theorem brightnessRequest_no_xy {requested : Json} :
    brightnessRequest.find? "xy" ≠ some requested := by
  rw [show brightnessRequest.find? "xy" = none from rfl]
  simp

/-- A reply with one success object. -/
def successReply (members : List (String × Json)) : List Json :=
  [.obj [("success", .obj members)]]

theorem successReply_wellFormed {path : String} {members : List (String × Json)}
    (noPair : ∀ m ∈ members, m.1 ≠ withSlash path ++ "xy") :
    WellFormedReply path brightnessRequest (successReply members) := by
  have only : ∀ entry ∈ successReply members, entry = .obj [("success", .obj members)] :=
    fun entry member => List.mem_singleton.mp member
  constructor
  · intro entry member
    exact ⟨_, only entry member⟩
  · intro entry member success found
    rw [only entry member] at found
    exact ⟨members, (Option.some.inj found).symm⟩
  · intro requested asked
    exact absurd asked brightnessRequest_no_xy
  · intro entry member members' found m listed pair
    rw [only entry member] at found
    obtain rfl := Json.obj.inj (Option.some.inj found)
    exact absurd pair (noPair m listed)

theorem validatePUTReply_exact_iff_brightness :
    (validatePUTReply "/lights/1/state" brightnessRequest.toJson
        (.arr (successReply
          [("/lights/1/state/bri", .num 100), ("/lights/1/state/on", .bool true)])) = .ok true ↔
      ConfirmsRequest "/lights/1/state" brightnessRequest
        (successReply [("/lights/1/state/bri", .num 100), ("/lights/1/state/on", .bool true)])) ↔
    LastMembersDecide "/lights/1/state" brightnessRequest
      (successReply [("/lights/1/state/bri", .num 100), ("/lights/1/state/on", .bool true)]) :=
  validatePUTReply_exact_iff (by decide) (successReply_wellFormed (by decide))

/-- The brightness is not confirmed, but the member after it is. -/
theorem unconfirmed_brightness_accepted :
    ¬ ∀ (path : String) (request : Object) (entries : List Json), path ≠ "" →
      WellFormedReply path request entries →
      (validatePUTReply path request.toJson (.arr entries) = .ok true ↔
        ConfirmsRequest path request entries) := by
  intro always
  have exact := always "/lights/1/state" brightnessRequest
    (successReply [("/lights/1/state/bri", .num 50), ("/lights/1/state/on", .bool true)])
    (by decide) (successReply_wellFormed (by decide))
  obtain ⟨members, found, confirmed⟩ := (exact.mp rfl).2 _ List.mem_cons_self
  obtain rfl := Json.obj.inj (Option.some.inj found)
  have bri := confirmed ("/lights/1/state/bri", .num 50) List.mem_cons_self
  have spec : ∃ flag, validateMember (withSlash "/lights/1/state") brightnessRequest.toJson
      (some "/lights/1/state/bri") (.num 50) = .ok flag ∧ (flag = true ↔
        Confirms Equals "/lights/1/state" brightnessRequest ("/lights/1/state/bri", .num 50)) :=
    validateMember_spec (m := ("/lights/1/state/bri", .num 50))
      (fun _ asked => absurd asked brightnessRequest_no_xy) (fun pair => absurd pair (by decide))
  obtain ⟨flag, computes, iff⟩ := spec
  have wrong : validateMember (withSlash "/lights/1/state") brightnessRequest.toJson
      (some "/lights/1/state/bri") (.num 50) = .ok false := rfl
  rw [wrong, iff.mpr (bri.of_not_xy (by decide))] at computes
  exact absurd computes (by simp)

end Hueplusplus.Utils
