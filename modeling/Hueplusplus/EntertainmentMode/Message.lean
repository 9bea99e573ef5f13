import Hueplusplus.Foundation.Buffer
import Hueplusplus.Json
import Mathlib.Data.Int.Bitwise

/-!
# The message of the entertainment mode

The message is a header and one record for each light of the group. The constructor and
`setColorRGB` compute the offsets of the records by hand. What they write is compared with a
list of lights and their colours: in every run the buffer shows such a list, record by
record.
-/

namespace Hueplusplus

/-- `Group::getLightIds`, by the JSON its constant `getValue` returns. -/
def Group.getLightIds (value : Json) : Except Exception (List ℤ) := do
  let lights ← value.at' "lights"
  -- Luminaires can have null ids if not all light have been added
  let ids := (lights.items.map Prod.snd).filter (· ≠ .null)
  ids.mapM fun id => do Text.stoi (← id.getString).toList

def HUE_ENTERTAINMENT_HEADER_SIZE : ℕ := 16

def HUE_ENTERTAINMENT_LIGHT_SIZE : ℕ := 9

/-- The message buffer of an `EntertainmentMode` and its number of lights. -/
structure EntertainmentMessage where
  msg : List UInt8
  numLights : UInt8

/-- A call of `setColorRGB`. -/
structure SetColorRGB where
  lightIndex : UInt8
  red : UInt8
  green : UInt8
  blue : UInt8

namespace EntertainmentMessage

/-- Assignments to consecutive elements of the buffer. -/
def assign (msg : List UInt8) (i : ℕ) (bytes : List UInt8) : Except Exception (List UInt8) :=
  match Buffer.writes? msg i bytes with
  | some msg => .ok msg
  | none => .error .undefinedBehaviour

/-- The most and the least significant byte of an id. -/
def idBytes (id : ℤ) : List UInt8 :=
  [UInt8.ofInt (id >>> (8 : ℕ)), UInt8.ofInt (Int.land id 0xFF)]

def title : List UInt8 := "HueStream".toList.map Char.toUInt8

/-- Version 1.0, sequence id, reserved twice, colour space RGB, reserved. -/
def settings : List UInt8 := [1, 0, 0, 0, 0, 0, 0]

/-- The loop body of the constructor: type and id of a light, and no colour. -/
def fillLight (ids : List ℤ) (msg : List UInt8) (lightIdx : ℕ) :
    Except Exception (List UInt8) :=
  match ids[lightIdx]? with
  | some id =>
    let msgIdx := HUE_ENTERTAINMENT_HEADER_SIZE + lightIdx * HUE_ENTERTAINMENT_LIGHT_SIZE
    assign msg msgIdx (0 :: idBytes id ++ [0, 0, 0, 0, 0, 0])
  | none => .error .undefinedBehaviour

/-- The part of the constructor that builds the message, by `group->getLightIds()`. -/
def new (ids : List ℤ) : Except Exception EntertainmentMessage := do
  -- the number of lights is stored in a `uint8_t`
  let numLights := UInt8.ofNat ids.length
  let msg := List.replicate
    (HUE_ENTERTAINMENT_HEADER_SIZE + numLights.toNat * HUE_ENTERTAINMENT_LIGHT_SIZE) 0
  let msg ← assign msg 0 title
  let msg ← assign msg 9 settings
  let msg ← (List.range numLights.toNat).foldlM (fillLight ids) msg
  return ⟨msg, numLights⟩

def setColorRGB (m : EntertainmentMessage) (call : SetColorRGB) :
    Except Exception (Bool × EntertainmentMessage) :=
  if call.lightIndex < m.numLights then do
    let msgIdx :=
      HUE_ENTERTAINMENT_HEADER_SIZE + call.lightIndex.toNat * HUE_ENTERTAINMENT_LIGHT_SIZE
    let msg ← assign m.msg (msgIdx + 3)
      [call.red, call.red, call.green, call.green, call.blue, call.blue]
    return (true, { m with msg })
  else return (false, m)

/-- A sequence of calls. -/
def run (m : EntertainmentMessage) : List SetColorRGB → Except Exception EntertainmentMessage
  | [] => .ok m
  | call :: calls => do
    let (_, m) ← m.setColorRGB call
    m.run calls

def header : List UInt8 := title ++ settings

/-- A value of 16 bits, the most significant byte first. -/
def word (msb lsb : UInt8) : ℕ := 256 * msb.toNat + lsb.toNat

structure LightRecord where
  type : UInt8
  id : ℕ
  red : ℕ
  green : ℕ
  blue : ℕ

def decode? : List UInt8 → Option LightRecord
  | [type, id, id', red, red', green, green', blue, blue'] =>
    some ⟨type, word id id', word red red', word green green', word blue blue'⟩
  | _ => none

/-- The bytes of the record of a light. -/
def record (m : EntertainmentMessage) (i : ℕ) : List UInt8 :=
  (m.msg.drop (HUE_ENTERTAINMENT_HEADER_SIZE + HUE_ENTERTAINMENT_LIGHT_SIZE * i)).take
    HUE_ENTERTAINMENT_LIGHT_SIZE

/-- The last colour set for a light, or the colour before if there was none. -/
def lastColor (before : UInt8 × UInt8 × UInt8) (calls : List SetColorRGB) (i : ℕ) :
    UInt8 × UInt8 × UInt8 :=
  match (calls.filter (·.lightIndex.toNat = i)).getLast? with
  | some call => (call.red, call.green, call.blue)
  | none => before

/-- The message of a group after the given calls. Each byte of a colour is doubled to 16
bits. -/
structure WellFormed (ids : List ℤ) (calls : List SetColorRGB) (m : EntertainmentMessage) :
    Prop where
  length : m.msg.length = 16 + 9 * ids.length
  header : m.msg.take 16 = header
  light : ∀ i (h : i < ids.length), decode? (m.record i) = some
    { type := 0
      id := ids[i].toNat
      red := 257 * (lastColor (0, 0, 0) calls i).1.toNat
      green := 257 * (lastColor (0, 0, 0) calls i).2.1.toNat
      blue := 257 * (lastColor (0, 0, 0) calls i).2.2.toNat }

/-- The bytes of a light and its colour. -/
def encode (light : ℤ × UInt8 × UInt8 × UInt8) : List UInt8 :=
  (0 :: idBytes light.1) ++
    [light.2.1, light.2.1, light.2.2.1, light.2.2.1, light.2.2.2, light.2.2.2]

@[simp] theorem length_encode (light : ℤ × UInt8 × UInt8 × UInt8) :
    (encode light).length = HUE_ENTERTAINMENT_LIGHT_SIZE := rfl

@[simp] theorem length_header : header.length = HUE_ENTERTAINMENT_HEADER_SIZE := by decide

theorem word_idBytes {id : ℤ} (lower : 0 ≤ id) (upper : id ≤ 65535) :
    word (UInt8.ofInt (id >>> (8 : ℕ))) (UInt8.ofInt (Int.land id 0xFF)) = id.toNat := by
  obtain ⟨n, rfl⟩ := Int.eq_ofNat_of_zero_le lower
  have msb : ((n : ℤ) >>> (8 : ℕ)) = ((n / 256 : ℕ) : ℤ) := by
    rw [Int.shiftRight_eq_div_pow]
    rfl
  have lsb : Int.land n 0xFF = ((n % 256 : ℕ) : ℤ) :=
    congrArg Int.ofNat (Nat.and_two_pow_sub_one_eq_mod n 8)
  rw [msb, lsb, word]
  simp only [UInt8.ofInt, UInt8.toNat_ofNat']
  omega

@[simp] theorem word_self (byte : UInt8) : word byte byte = 257 * byte.toNat := by
  rw [word]
  omega

theorem decode?_encode {id : ℤ} (lower : 0 ≤ id) (upper : id ≤ 65535)
    (color : UInt8 × UInt8 × UInt8) :
    decode? (encode (id, color)) = some
      { type := 0
        id := id.toNat
        red := 257 * color.1.toNat
        green := 257 * color.2.1.toNat
        blue := 257 * color.2.2.toNat } := by
  change some _ = some _
  rw [word_idBytes lower upper, word_self, word_self, word_self]

/-- The message shows these lights and colours. -/
structure Shows (m : EntertainmentMessage) (lights : List (ℤ × UInt8 × UInt8 × UInt8)) :
    Prop where
  numLights : m.numLights.toNat = lights.length
  msg : m.msg = header ++ lights.flatMap encode

theorem assign_append {before part after bytes : List UInt8} {i : ℕ} (place : i = before.length)
    (covered : part.length = bytes.length) :
    assign (before ++ (part ++ after)) i bytes = .ok (before ++ (bytes ++ after)) := by
  rw [assign, Buffer.writes?_append place covered]

/-- Assignments to the last bytes of a light's record. -/
theorem assign_light {lights : List (ℤ × UInt8 × UInt8 × UInt8)} {i j : ℕ}
    {old new : ℤ × UInt8 × UInt8 × UInt8} (there : lights[i]? = some old)
    {kept part bytes : List UInt8} (before : encode old = kept ++ part)
    (after : encode new = kept ++ bytes)
    (place : j = HUE_ENTERTAINMENT_HEADER_SIZE + i * HUE_ENTERTAINMENT_LIGHT_SIZE + kept.length) :
    assign (header ++ lights.flatMap encode) j bytes =
      .ok (header ++ (lights.set i new).flatMap encode) := by
  obtain ⟨h, rfl⟩ := List.getElem?_eq_some_iff.mp there
  obtain ⟨front, back, size, split, replaced⟩ :=
    Buffer.split_record length_encode header lights i h
  have covered : part.length = bytes.length := by
    have lengths := (length_encode lights[i]).trans (length_encode new).symm
    rw [before, after, List.length_append, List.length_append] at lengths
    exact Nat.add_left_cancel lengths
  have start : j = (front ++ kept).length := by
    rw [place, List.length_append, size, length_header, Nat.mul_comm i]
  have assigned : assign ((front ++ kept) ++ (part ++ back)) j bytes =
      .ok ((front ++ kept) ++ (bytes ++ back)) := assign_append start covered
  rw [split, replaced, before, after]
  simpa only [List.append_assoc] using assigned

/-- The lights of a group, each with its colour. -/
def lightsOf (ids : List ℤ) (color : ℕ → UInt8 × UInt8 × UInt8) :
    List (ℤ × UInt8 × UInt8 × UInt8) :=
  ids.mapIdx fun i id => (id, color i)

@[simp] theorem length_lightsOf (ids : List ℤ) (color : ℕ → UInt8 × UInt8 × UInt8) :
    (lightsOf ids color).length = ids.length := List.length_mapIdx

@[simp] theorem lightsOf_getElem? (ids : List ℤ) (color : ℕ → UInt8 × UInt8 × UInt8) (i : ℕ) :
    (lightsOf ids color)[i]? = ids[i]?.map fun id => (id, color i) := List.getElem?_mapIdx

/-- The first `k` records are filled in, the others are still zero. -/
def filled (ids : List ℤ) (k : ℕ) : List (ℤ × UInt8 × UInt8 × UInt8) :=
  ids.mapIdx fun i id => (if i < k then id else 0, 0, 0, 0)

@[simp] theorem filled_getElem? (ids : List ℤ) (k i : ℕ) :
    (filled ids k)[i]? = ids[i]?.map fun id => (if i < k then id else 0, 0, 0, 0) :=
  List.getElem?_mapIdx

@[simp] theorem filled_zero (ids : List ℤ) :
    (filled ids 0).flatMap encode =
      List.replicate (ids.length * HUE_ENTERTAINMENT_LIGHT_SIZE) 0 := by
  have blank : filled ids 0 = List.replicate ids.length (0, 0, 0, 0) := by
    apply List.ext_getElem
    · simp [filled]
    · intro i _ _
      simp [filled]
  have zeros : encode (0, 0, 0, 0) = List.replicate HUE_ENTERTAINMENT_LIGHT_SIZE 0 := by decide
  rw [blank, List.flatMap_replicate, zeros, List.flatten_replicate_replicate]

theorem filled_succ (ids : List ℤ) {k : ℕ} {id : ℤ} (there : ids[k]? = some id) :
    (filled ids k).set k (id, 0, 0, 0) = filled ids (k + 1) := by
  apply List.ext_getElem?
  intro i
  by_cases here : k = i
  · subst here
    obtain ⟨inside, -⟩ := List.getElem?_eq_some_iff.mp there
    have present : k < (filled ids k).length := by simpa [filled] using inside
    rw [List.getElem?_set_self present, filled_getElem?, there, Option.map_some,
      if_pos (Nat.lt_succ_self k)]
  · have before : i < k + 1 ↔ i < k := by omega
    rw [List.getElem?_set_ne here, filled_getElem?, filled_getElem?]
    simp only [before]

theorem filled_length (ids : List ℤ) :
    filled ids ids.length = lightsOf ids fun _ => (0, 0, 0) := by
  apply List.ext_getElem?
  intro i
  rw [filled_getElem?, lightsOf_getElem?]
  cases there : ids[i]? with
  | none => rfl
  | some id =>
      obtain ⟨inside, -⟩ := List.getElem?_eq_some_iff.mp there
      rw [Option.map_some, Option.map_some, if_pos inside]

/-- After `k` rounds of the loop, `k` records are filled in. -/
theorem fillLights (ids : List ℤ) {k : ℕ} (h : k ≤ ids.length) :
    (List.range k).foldlM (fillLight ids) (header ++ (filled ids 0).flatMap encode) =
      .ok (header ++ (filled ids k).flatMap encode) := by
  induction k with
  | zero => rfl
  | succ k ih =>
      have there : ids[k]? = some ids[k] := List.getElem?_eq_getElem h
      have blank : (filled ids k)[k]? = some (0, 0, 0, 0) := by
        rw [filled_getElem?, there, Option.map_some, if_neg (Nat.lt_irrefl k)]
      have step : fillLight ids (header ++ (filled ids k).flatMap encode) k =
          .ok (header ++ (filled ids (k + 1)).flatMap encode) := by
        have start : encode (0, 0, 0, 0) = [] ++ encode (0, 0, 0, 0) := rfl
        rw [fillLight, there, ← filled_succ ids there]
        exact assign_light blank start rfl rfl
      rw [List.range_succ, List.foldlM_append, ih (Nat.le_of_succ_le h), Except.ok_bind,
        List.foldlM_cons, step]
      rfl

theorem new_shows {ids : List ℤ} (few : ids.length ≤ 255) :
    ∃ m, new ids = .ok m ∧ Shows m (lightsOf ids fun _ => (0, 0, 0)) := by
  have count : (UInt8.ofNat ids.length).toNat = ids.length :=
    UInt8.toNat_ofNat_of_lt' (Nat.lt_succ_of_le few)
  have blank : List.replicate (HUE_ENTERTAINMENT_HEADER_SIZE +
      ids.length * HUE_ENTERTAINMENT_LIGHT_SIZE) 0 =
      [] ++ (List.replicate 9 0 ++ (List.replicate 7 0 ++ (filled ids 0).flatMap encode)) := by
    rw [filled_zero, List.nil_append, List.replicate_append_replicate,
      List.replicate_append_replicate, ← Nat.add_assoc]
    rfl
  have named : assign ([] ++ (List.replicate 9 0 ++ (List.replicate 7 0 ++
      (filled ids 0).flatMap encode))) 0 title =
        .ok (title ++ (List.replicate 7 0 ++ (filled ids 0).flatMap encode)) :=
    assign_append rfl (by decide)
  have configured : assign (title ++ (List.replicate 7 0 ++ (filled ids 0).flatMap encode)) 9
      settings = .ok (header ++ (filled ids 0).flatMap encode) := by
    rw [header, List.append_assoc]
    exact assign_append (by decide) (by decide)
  refine ⟨⟨header ++ (filled ids ids.length).flatMap encode, UInt8.ofNat ids.length⟩, ?_, ?_⟩
  · simp only [new, count]
    rw [blank, named, Except.ok_bind, configured, Except.ok_bind, fillLights ids le_rfl]
    rfl
  · constructor
    · rw [count, length_lightsOf]
    · rw [filled_length]

theorem fillLights_take (ids : List ℤ) (k : ℕ) {lights : List ℕ} (h : ∀ i ∈ lights, i < k)
    (msg : List UInt8) :
    lights.foldlM (fillLight (ids.take k)) msg = lights.foldlM (fillLight ids) msg := by
  induction lights generalizing msg with
  | nil => rfl
  | cons i lights ih =>
      have inside : i < k := h i List.mem_cons_self
      have same : fillLight (ids.take k) msg i = fillLight ids msg i := by
        rw [fillLight, fillLight, List.getElem?_take_of_lt inside]
      rw [List.foldlM_cons, List.foldlM_cons, same]
      exact bind_congr fun msg => ih (fun j member => h j (List.mem_cons_of_mem i member)) msg

/-- The ids beyond the number of lights, which is stored modulo 256, are not looked at. -/
theorem new_take (ids : List ℤ) : new (ids.take (UInt8.ofNat ids.length).toNat) = new ids := by
  have fewer : (UInt8.ofNat ids.length).toNat ≤ ids.length := by
    rw [UInt8.toNat_ofNat']
    exact Nat.mod_le _ _
  have count : UInt8.ofNat (ids.take (UInt8.ofNat ids.length).toNat).length =
      UInt8.ofNat ids.length := by
    rw [List.length_take, Nat.min_eq_left fewer, UInt8.ofNat_toNat]
  have same (msg : List UInt8) := fillLights_take ids (UInt8.ofNat ids.length).toNat
    (fun i member => List.mem_range.mp member) msg
  simp only [new, count, same]

/-- The constructor stays inside its buffer for any number of lights. -/
theorem exists_new (ids : List ℤ) : ∃ m, new ids = .ok m := by
  have few : (ids.take (UInt8.ofNat ids.length).toNat).length ≤ 255 := by
    rw [List.length_take]
    exact (Nat.min_le_left _ _).trans (Nat.le_of_lt_succ (UInt8.toNat_lt _))
  obtain ⟨m, made, -⟩ := new_shows few
  exact ⟨m, (new_take ids).symm.trans made⟩

theorem lightsOf_set (ids : List ℤ) (color : ℕ → UInt8 × UInt8 × UInt8) {i : ℕ} {id : ℤ}
    (there : ids[i]? = some id) (c : UInt8 × UInt8 × UInt8) :
    (lightsOf ids color).set i (id, c) = lightsOf ids (Function.update color i c) := by
  apply List.ext_getElem?
  intro j
  by_cases here : i = j
  · subst here
    obtain ⟨inside, -⟩ := List.getElem?_eq_some_iff.mp there
    have present : i < (lightsOf ids color).length := by simpa using inside
    rw [List.getElem?_set_self present, lightsOf_getElem?, there, Option.map_some,
      Function.update_self]
  · rw [List.getElem?_set_ne here, lightsOf_getElem?, lightsOf_getElem?,
      Function.update_of_ne (Ne.symm here)]

/-- A call for a light of the group sets the colour of that light only. -/
theorem setColorRGB_inside {m : EntertainmentMessage} {ids : List ℤ}
    {color : ℕ → UInt8 × UInt8 × UInt8} (shown : Shows m (lightsOf ids color))
    {call : SetColorRGB} (inside : call.lightIndex.toNat < ids.length) :
    ∃ m', m.setColorRGB call = .ok (true, m') ∧
      Shows m' (lightsOf ids (Function.update color call.lightIndex.toNat
        (call.red, call.green, call.blue))) := by
  have count := shown.numLights
  rw [length_lightsOf] at count
  have valid : call.lightIndex < m.numLights := by
    rw [UInt8.lt_iff_toNat_lt, count]
    exact inside
  have there : ids[call.lightIndex.toNat]? = some ids[call.lightIndex.toNat] :=
    List.getElem?_eq_getElem inside
  generalize ids[call.lightIndex.toNat] = id at there
  have light : (lightsOf ids color)[call.lightIndex.toNat]? =
      some (id, color call.lightIndex.toNat) := by
    rw [lightsOf_getElem?, there, Option.map_some]
  have new : encode (id, call.red, call.green, call.blue) = (0 :: idBytes id) ++
      [call.red, call.red, call.green, call.green, call.blue, call.blue] := rfl
  have assigned := assign_light light rfl new rfl
  rw [← shown.msg, lightsOf_set ids color there] at assigned
  refine ⟨⟨_, m.numLights⟩, ?_, ⟨?_, rfl⟩⟩
  · have size : (0 :: idBytes id).length = 3 := rfl
    rw [size] at assigned
    rw [setColorRGB, if_pos valid]
    simp [assigned]
  · rw [count, length_lightsOf]

theorem setColorRGB_outside {m : EntertainmentMessage} {n : ℕ} (count : m.numLights.toNat = n)
    {call : SetColorRGB} (outside : n ≤ call.lightIndex.toNat) :
    m.setColorRGB call = .ok (false, m) := by
  have invalid : ¬ call.lightIndex < m.numLights := by
    rw [UInt8.lt_iff_toNat_lt, count]
    exact Nat.not_lt.mpr outside
  rw [setColorRGB, if_neg invalid]
  rfl

theorem lastColor_cons_self (before : UInt8 × UInt8 × UInt8) (call : SetColorRGB)
    (calls : List SetColorRGB) : lastColor before (call :: calls) call.lightIndex.toNat =
      lastColor (call.red, call.green, call.blue) calls call.lightIndex.toNat := by
  simp only [lastColor, List.filter_cons_of_pos, decide_true, List.getLast?_cons]
  cases (calls.filter (·.lightIndex.toNat = call.lightIndex.toNat)).getLast? <;> rfl

theorem lastColor_cons_ne (before : UInt8 × UInt8 × UInt8) (call : SetColorRGB)
    (calls : List SetColorRGB) {i : ℕ} (other : call.lightIndex.toNat ≠ i) :
    lastColor before (call :: calls) i = lastColor before calls i := by
  rw [lastColor, List.filter_cons_of_neg (by simpa using other)]
  rfl

/-- The first call counts as the colour before the other calls. -/
theorem lastColor_cons (color : ℕ → UInt8 × UInt8 × UInt8) (call : SetColorRGB)
    (calls : List SetColorRGB) (i : ℕ) : lastColor (color i) (call :: calls) i =
      lastColor (Function.update color call.lightIndex.toNat
        (call.red, call.green, call.blue) i) calls i := by
  by_cases here : call.lightIndex.toNat = i
  · subst here
    rw [lastColor_cons_self, Function.update_self]
  · rw [lastColor_cons_ne _ _ _ here, Function.update_of_ne (Ne.symm here)]

theorem lightsOf_congr (ids : List ℤ) {color color' : ℕ → UInt8 × UInt8 × UInt8}
    (h : ∀ i < ids.length, color i = color' i) : lightsOf ids color = lightsOf ids color' := by
  apply List.ext_getElem?
  intro i
  rw [lightsOf_getElem?, lightsOf_getElem?]
  cases there : ids[i]? with
  | none => rfl
  | some id =>
      obtain ⟨inside, -⟩ := List.getElem?_eq_some_iff.mp there
      rw [Option.map_some, Option.map_some, h i inside]

theorem run_shows {ids : List ℤ} (calls : List SetColorRGB) {m : EntertainmentMessage}
    {color : ℕ → UInt8 × UInt8 × UInt8} (shown : Shows m (lightsOf ids color)) :
    ∃ m', m.run calls = .ok m' ∧
      Shows m' (lightsOf ids fun i => lastColor (color i) calls i) := by
  induction calls generalizing m color with
  | nil => exact ⟨m, rfl, shown⟩
  | cons call calls ih =>
      rw [funext (lastColor_cons color call calls)]
      by_cases inside : call.lightIndex.toNat < ids.length
      · obtain ⟨m', set, shown'⟩ := setColorRGB_inside shown inside
        rw [run, set]
        exact ih shown'
      · have count := shown.numLights
        rw [length_lightsOf] at count
        have outside := Nat.not_lt.mp inside
        rw [run, setColorRGB_outside count outside]
        have same : lightsOf ids color = lightsOf ids (Function.update color
            call.lightIndex.toNat (call.red, call.green, call.blue)) :=
          lightsOf_congr ids fun i h =>
            (Function.update_of_ne (Nat.ne_of_lt (h.trans_le outside)) _ _).symm
        exact ih (same ▸ shown)

theorem wellFormed_of_shows {ids : List ℤ} (small : ∀ id ∈ ids, 0 ≤ id ∧ id ≤ 65535)
    {calls : List SetColorRGB} {m : EntertainmentMessage}
    (shown : Shows m (lightsOf ids (lastColor (0, 0, 0) calls))) : WellFormed ids calls m where
  length := by
    rw [shown.msg, List.length_append, Buffer.length_records length_encode, length_header,
      length_lightsOf]
    rfl
  header := by
    rw [shown.msg]
    exact List.take_left' length_header
  light i h := by
    have inside : i < (lightsOf ids (lastColor (0, 0, 0) calls)).length := by simpa using h
    have bytes := Buffer.read_record length_encode header _ i inside
    have light : (lightsOf ids (lastColor (0, 0, 0) calls))[i] =
        (ids[i], lastColor (0, 0, 0) calls i) :=
      List.getElem_mapIdx
    have range := small ids[i] (List.getElem_mem h)
    rw [record, shown.msg, ← length_header, bytes, light]
    exact decode?_encode range.1 range.2 _

/-- For every group of at most 255 lights with ids of 16 bits, the constructor and any calls
afterwards stay inside the buffer and leave a well-formed message, and the next call returns
whether its index is that of a light; if it is not, nothing changes. -/
theorem message_wellFormed (value : Json) (ids : List ℤ)
    (read : Group.getLightIds value = .ok ids) (few : ids.length ≤ 255)
    (small : ∀ id ∈ ids, 0 ≤ id ∧ id ≤ 65535) (calls : List SetColorRGB) :
    ∃ m, (do (← new (← Group.getLightIds value)).run calls) = .ok m ∧ WellFormed ids calls m ∧
      ∀ call : SetColorRGB,
        (call.lightIndex.toNat < ids.length → ∃ m', m.setColorRGB call = .ok (true, m')) ∧
        (ids.length ≤ call.lightIndex.toNat → m.setColorRGB call = .ok (false, m)) := by
  obtain ⟨start, made, blank⟩ := new_shows few
  obtain ⟨m, ran, shown⟩ := run_shows calls blank
  refine ⟨m, ?_, wellFormed_of_shows small shown, fun call => ⟨fun inside => ?_, ?_⟩⟩
  · rw [read, Except.ok_bind, made, Except.ok_bind, ran]
  · obtain ⟨m', set, -⟩ := setColorRGB_inside shown inside
    exact ⟨m', set⟩
  · exact setColorRGB_outside (shown.numLights.trans (length_lightsOf _ _))

/-- A group of the lights 1 and 258, the second of which is set to purple. -/
theorem message_wellFormed_purple :
    let value := Json.obj [("lights", .arr [.str "1", .null, .str "258"])]
    let purple : SetColorRGB := { lightIndex := 1, red := 128, green := 0, blue := 255 }
    ∃ m, (do (← new (← Group.getLightIds value)).run [purple]) = .ok m ∧
      WellFormed [1, 258] [purple] m ∧
      ∀ call : SetColorRGB,
        (call.lightIndex.toNat < 2 → ∃ m', m.setColorRGB call = .ok (true, m')) ∧
        (2 ≤ call.lightIndex.toNat → m.setColorRGB call = .ok (false, m)) :=
  message_wellFormed (.obj [("lights", .arr [.str "1", .null, .str "258"])]) [1, 258] rfl
    (by decide) (by decide) [{ lightIndex := 1, red := 128, green := 0, blue := 255 }]

end EntertainmentMessage

end Hueplusplus
