/-
The JSON form of plaintext messages (`message/mod.rs`): the fields of a message and of its attachments under their
names, the absent ones left out, and the extra headers beside them at the same level.
-/
import AffinidiTdk.Didcomm.Envelope
import AffinidiTdk.Lib.JsonRead

namespace AffinidiTdk.Didcomm

open List Option Json
open Fallible

/-! ## Writing -/

/-- The members of an object of which some may be absent. -/
def members : List (String × Option Json) → List (String × Json)
  | [] => []
  | (key, some value) :: fields => (key, value) :: members fields
  | (_, none) :: fields => members fields

def strs (texts : List String) : Json := .arr (texts.map .str)

def Attachment.dataFields (attachment : Attachment) : List (String × Option Json) :=
  [("json", attachment.json), ("base64", attachment.base64.map .str), ("links", attachment.links.map strs),
    ("hash", attachment.hash.map .str), ("jws", attachment.jws.map .str)]

def Attachment.fields (attachment : Attachment) : List (String × Option Json) :=
  [("id", attachment.id.map .str), ("description", attachment.description.map .str),
    ("filename", attachment.filename.map .str), ("media_type", attachment.mediaType.map .str),
    ("format", attachment.format.map .str), ("lastmod_time", attachment.lastmodTime.map fun (n : ℕ) => .int n),
    ("byte_count", attachment.byteCount.map fun (n : ℕ) => .int n),
      ("data", some (.obj (members attachment.dataFields)))]

def Attachment.toJson (attachment : Attachment) : Json := .obj (members attachment.fields)

def Message.fields (message : Message) : List (String × Option Json) :=
  [("id", some (.str message.id)), ("type", some (.str message.typ)), ("from", message.sender.map .str),
    ("to", message.toDids.map strs), ("body", some message.body), ("thid", message.thid.map .str),
    ("pthid", message.pthid.map .str), ("created_time", message.createdTime.map fun (n : ℕ) => .int n),
    ("expires_time", message.expiresTime.map fun (n : ℕ) => .int n),
    ("attachments", message.attachments.map fun attachments => .arr (attachments.map Attachment.toJson))]

/-- The serialized message: its fields, then the extra headers. -/
def Message.toJson (message : Message) : Json := .obj (members message.fields ++ message.extra)

/-- The names of the fields of a message. -/
def fieldNames : List String :=
  ["id", "type", "from", "to", "body", "thid", "pthid", "created_time", "expires_time", "attachments"]

/-! ## Reading -/

section

variable {α : Type}

def required (read : Json → Except String α) (value : Json) (key : String) : Except String α :=
  match value.get? key with
  | some field => read field
  | none => .error s!"missing field {key}"

/-- An optional field; null counts as absent. -/
def optional (read : Json → Except String α) (value : Json) (key : String) : Except String (Option α) :=
  match value.get? key with
  | none | some .null => .ok none
  | some field => (read field).map some

end

def readStr : Json → Except String String
  | .str s => .ok s
  | _ => .error "invalid type, expected a string"

def readU64 (value : Json) : Except String ℕ :=
  match value.asU64 with
  | some n => .ok n
  | none => .error "invalid type, expected u64"

def readObject : Json → Except String Json
  | .obj fields => .ok (.obj fields)
  | _ => .error "invalid type, expected a map"

def readList {α : Type} (read : Json → Except String α) : Json → Except String (List α)
  | .arr items => items.mapM read
  | _ => .error "invalid type, expected a sequence"

def Attachment.ofJson (value : Json) : Except String Attachment := do
  let id ← optional readStr value "id"
  let description ← optional readStr value "description"
  let filename ← optional readStr value "filename"
  let mediaType ← optional readStr value "media_type"
  let format ← optional readStr value "format"
  let lastmodTime ← optional readU64 value "lastmod_time"
  let byteCount ← optional readU64 value "byte_count"
  let data ← required readObject value "data"
  let json ← optional .ok data "json"
  let base64 ← optional readStr data "base64"
  let links ← optional (readList readStr) data "links"
  let hash ← optional readStr data "hash"
  let jws ← optional readStr data "jws"
  return { id, description, filename, mediaType, format, lastmodTime, byteCount, json, base64, links, hash, jws }

/-- `Message::deserialize`: what is under no name of a field is an extra header. -/
def Message.ofJson (value : Json) : Except String Message := do
  let id ← required readStr value "id"
  let typ ← required readStr value "type"
  let sender ← optional readStr value "from"
  let toDids ← optional (readList readStr) value "to"
  let body ← required .ok value "body"
  let thid ← optional readStr value "thid"
  let pthid ← optional readStr value "pthid"
  let createdTime ← optional readU64 value "created_time"
  let expiresTime ← optional readU64 value "expires_time"
  let attachments ← optional (readList Attachment.ofJson) value "attachments"
  return { id, typ, sender, toDids, body, thid, pthid, createdTime, expiresTime, attachments
           extra := (value.asObject.getD []).filter fun header => header.1 ∉ fieldNames }

/-! ## What the types of the source promise -/

/-- An attachment whose numbers and values JSON text can carry. -/
structure Attachment.WellTyped (isFloat : String → Prop) (attachment : Attachment) : Prop where
  lastmodTime : ∀ n ∈ attachment.lastmodTime, n < 2 ^ 64
  byteCount : ∀ n ∈ attachment.byteCount, n < 2 ^ 64
  json : ∀ value ∈ attachment.json, value.Valid isFloat

/-- Numbers of 64 bits, values that serde can hold, and headers of a hash map. -/
structure Message.WellTyped (isFloat : String → Prop) (message : Message) : Prop where
  body : message.body.Valid isFloat
  createdTime : ∀ n ∈ message.createdTime, n < 2 ^ 64
  expiresTime : ∀ n ∈ message.expiresTime, n < 2 ^ 64
  attachments : ∀ attachments ∈ message.attachments, ∀ attachment ∈ attachments, attachment.WellTyped isFloat
  extra : ∀ header ∈ message.extra, header.2.Valid isFloat
  names : (message.extra.map Prod.fst).Nodup

/-- No extra header has the name of a field. -/
def Message.Separate (message : Message) : Prop := ∀ header ∈ message.extra, header.1 ∉ fieldNames

section

variable {isFloat : String → Prop} {message : Message}

variable {fields : List (String × Option Json)}

theorem mem_members {key : String} {value : Json} :
    (key, value) ∈ members fields ↔ (key, some value) ∈ fields := by
  induction fields with
  | nil => simp [members]
  | cons field fields ih =>
    obtain ⟨name, o⟩ := field
    cases o with
    | none | some other => simp [members, ih]

theorem keys_members_sublist (fields : List (String × Option Json)) :
    ((members fields).map Prod.fst).Sublist (fields.map Prod.fst) := by
  induction fields with
  | nil => exact .slnil
  | cons field fields ih =>
    obtain ⟨name, o⟩ := field
    cases o with
    | none => exact ih.cons _
    | some value => exact ih.cons_cons _

theorem lookup_members {key : String} {o : Option Json} (hnodup : (fields.map Prod.fst).Nodup)
    (hmem : (key, o) ∈ fields) : (members fields).lookup key = o := by
  induction fields with
  | nil => cases hmem
  | cons field fields ih =>
    obtain ⟨name, other⟩ := field
    obtain ⟨hname, hfields⟩ := nodup_cons.1 hnodup
    rcases mem_cons.1 hmem with heq | hrest
    · cases heq
      cases o with
      | some value => simp [members]
      | none =>
        refine lookup_eq_none_iff.2 fun field hfield => bne_iff_ne.2 ?_
        rintro rfl
        exact hname ((keys_members_sublist fields).subset (List.mem_map_of_mem hfield))
    · have hne : key ≠ name := by
        rintro rfl
        exact hname (List.mem_map.2 ⟨_, hrest, rfl⟩)
      cases other with
      | none => exact ih hfields hrest
      | some value =>
        rw [members, lookup_cons, beq_false_of_ne hne]
        exact ih hfields hrest

theorem validFields_members (h : ∀ field ∈ fields, ∀ value ∈ field.2, value.Valid isFloat) :
    ValidFields isFloat (members fields) :=
  validFields_iff.2 fun field hfield => h (field.1, some field.2) (mem_members.1 hfield) field.2 rfl

theorem valid_str (o : Option String) : ∀ value ∈ o.map str, value.Valid isFloat := by
  rintro _ h
  obtain ⟨s, -, rfl⟩ := map_eq_some_iff.1 h
  trivial

theorem valid_u64 {o : Option ℕ} (ho : ∀ n ∈ o, n < 2 ^ 64) :
    ∀ value ∈ o.map (fun (n : ℕ) => int n), value.Valid isFloat := by
  rintro _ h
  obtain ⟨n, hn, rfl⟩ := map_eq_some_iff.1 h
  have hlt := ho n hn
  show -2 ^ 63 ≤ (n : ℤ) ∧ (n : ℤ) < 2 ^ 64
  omega

theorem valid_strs (o : Option (List String)) : ∀ value ∈ o.map strs, value.Valid isFloat := by
  rintro _ h
  obtain ⟨texts, -, rfl⟩ := map_eq_some_iff.1 h
  refine validItems_iff.2 fun item hitem => ?_
  obtain ⟨s, -, rfl⟩ := List.mem_map.1 hitem
  trivial

theorem Attachment.nodup_dataFields (attachment : Attachment) : (attachment.dataFields.map Prod.fst).Nodup := by
  show ["json", "base64", "links", "hash", "jws"].Nodup
  decide

theorem Attachment.nodup_fields (attachment : Attachment) : (attachment.fields.map Prod.fst).Nodup := by
  show ["id", "description", "filename", "media_type", "format", "lastmod_time", "byte_count", "data"].Nodup
  decide

theorem Message.nodup_fields (message : Message) : (message.fields.map Prod.fst).Nodup := by
  show fieldNames.Nodup
  decide

theorem Attachment.WellTyped.valid {attachment : Attachment} (h : attachment.WellTyped isFloat) :
    attachment.toJson.Valid isFloat := by
  have hdata : (obj (members attachment.dataFields)).Valid isFloat := by
    refine ⟨(keys_members_sublist _).nodup attachment.nodup_dataFields, validFields_members ?_⟩
    simp only [dataFields, forall_mem_cons]
    exact ⟨h.json, valid_str _, valid_strs _, valid_str _, valid_str _, by rintro _ ⟨⟩⟩
  refine ⟨(keys_members_sublist _).nodup attachment.nodup_fields, validFields_members ?_⟩
  simp only [fields, forall_mem_cons]
  refine ⟨valid_str _, valid_str _, valid_str _, valid_str _, valid_str _, valid_u64 h.lastmodTime,
    valid_u64 h.byteCount, ?_, by rintro _ ⟨⟩⟩
  rintro _ heq
  cases heq
  exact hdata

theorem Message.WellTyped.valid (h : message.WellTyped isFloat) (hseparate : message.Separate) :
    message.toJson.Valid isFloat := by
  have hkeys : (members message.fields).map Prod.fst ⊆ fieldNames := (keys_members_sublist _).subset
  constructor
  · rw [map_append]
    refine ((keys_members_sublist _).nodup message.nodup_fields).append h.names ?_
    intro key hkey hextra
    obtain ⟨header, hheader, rfl⟩ := List.mem_map.1 hextra
    exact hseparate header hheader (hkeys hkey)
  · refine validFields_iff.2 fun field hfield => ?_
    rcases mem_append.1 hfield with hfield | hfield
    · refine validFields_iff.1 (validFields_members ?_) field hfield
      simp only [fields, forall_mem_cons]
      refine ⟨?_, ?_, valid_str _, valid_strs _, ?_, valid_str _, valid_str _, valid_u64 h.createdTime,
        valid_u64 h.expiresTime, ?_, by rintro _ ⟨⟩⟩
      · rintro _ heq
        cases heq
        trivial
      · rintro _ heq
        cases heq
        trivial
      · rintro _ heq
        cases heq
        exact h.body
      · rintro _ heq
        obtain ⟨attachments, hattachments, rfl⟩ := map_eq_some_iff.1 heq
        refine validItems_iff.2 fun item hitem => ?_
        obtain ⟨attachment, hattachment, rfl⟩ := List.mem_map.1 hitem
        exact (h.attachments attachments hattachments attachment hattachment).valid
    · exact h.extra field hfield

end

/-! ## What is read again -/

section

variable {f : String → String}

/-- The attachment that is read from the one that was written: with the floats as they are read, and without a null. -/
def Attachment.reread (f : String → String) (attachment : Attachment) : Attachment :=
  { attachment with json := (attachment.json.map (Json.mapFloats f)).filter (· ≠ .null) }

def Message.reread (f : String → String) (message : Message) : Message :=
  { message with
    body := message.body.mapFloats f
    attachments := message.attachments.map fun attachments => attachments.map (Attachment.reread f)
    extra := message.extra.map fun header => (header.1, header.2.mapFloats f) }

variable {α : Type}

theorem optional_eq {β : Type} {read : Json → Except String β} {value : Json} {key : String} {write : α → Json}
    {g : α → β} {o : Option α} (hfield : value.get? key = (o.map write).map (mapFloats f))
    (hnull : ∀ a, (write a).mapFloats f ≠ .null) (hread : ∀ a ∈ o, read ((write a).mapFloats f) = .ok (g a)) :
    optional read value key = .ok (o.map g) := by
  cases o with
  | none =>
    have hnone : value.get? key = none := hfield
    rw [optional, hnone, map_none]
  | some a =>
    have hsome : value.get? key = some ((write a).mapFloats f) := hfield
    unfold optional
    rw [hsome]
    split
    · rename_i heq
      cases heq
    · rename_i heq
      exact absurd (some.inj heq) (hnull a)
    · rename_i field _ heq
      cases heq
      rw [hread a rfl]
      rfl

variable {value : Json} {key : String}

theorem optional_str {o : Option String} (h : value.get? key = (o.map .str).map (mapFloats f)) :
    optional readStr value key = .ok o := by
  have hread : optional readStr value key = .ok (o.map id) := optional_eq h (fun _ => by rintro ⟨⟩) fun _ _ => rfl
  rwa [Option.map_id] at hread

theorem optional_u64 {o : Option ℕ} (ho : ∀ n ∈ o, n < 2 ^ 64)
    (h : value.get? key = (o.map fun (n : ℕ) => int n).map (mapFloats f)) :
    optional readU64 value key = .ok o := by
  have hread : optional readU64 value key = .ok (o.map id) := optional_eq h (fun _ => by rintro ⟨⟩) fun n hn => by
    have hlt := ho n hn
    have hrange : 0 ≤ (n : ℤ) ∧ (n : ℤ) < 2 ^ 64 := by omega
    show readU64 (.int n) = .ok n
    rw [readU64, asU64, if_pos hrange]
    rfl
  rwa [Option.map_id] at hread

theorem mapM_readStr (texts : List String) :
    (mapFloatsItems f (texts.map .str)).mapM readStr = .ok texts := by
  induction texts with
  | nil => rfl
  | cons text texts ih =>
    rw [map_cons, mapFloatsItems, mapM_cons, ih]
    rfl

theorem optional_strs {o : Option (List String)} (h : value.get? key = (o.map strs).map (mapFloats f)) :
    optional (readList readStr) value key = .ok o := by
  have hread : optional (readList readStr) value key = .ok (o.map id) :=
    optional_eq h (fun _ => by rintro ⟨⟩) fun texts _ => mapM_readStr texts
  rwa [Option.map_id] at hread

variable {o : Option Json}

theorem optional_value (h : value.get? key = o.map (mapFloats f)) : optional .ok value key =
    .ok ((o.map (mapFloats f)).filter (· ≠ .null)) := by
  unfold optional
  rw [h]
  cases o with
  | none => rfl
  | some value =>
    rw [map_some]
    cases value with
    | null => rfl
    | _ => rfl

theorem required_eq {read : Json → Except String α} {a : α} {field : Json} (h : value.get? key = some field)
    (hread : read field = .ok a) : required read value key = .ok a := by
  rw [required, h]
  exact hread

theorem get?_members {fields : List (String × Option Json)} (hnodup : (fields.map Prod.fst).Nodup)
    (hmem : (key, o) ∈ fields) : ((obj (members fields)).mapFloats f).get? key =
    o.map (mapFloats f) := by
  rw [get?_mapFloats]
  exact congrArg _ (lookup_members hnodup hmem)

variable {isFloat : String → Prop} {attachment : Attachment}

theorem Attachment.ofJson_toJson (h : attachment.WellTyped isFloat) :
    Attachment.ofJson (attachment.toJson.mapFloats f) = .ok (attachment.reread f) := by
  have hfield : ∀ {key : String} {o : Option Json}, (key, o) ∈ attachment.fields →
      (attachment.toJson.mapFloats f).get? key = o.map (mapFloats f) := get?_members attachment.nodup_fields
  have hdata : ∀ {key : String} {o : Option Json}, (key, o) ∈ attachment.dataFields →
      ((obj (members attachment.dataFields)).mapFloats f).get? key = o.map (mapFloats f) :=
    get?_members attachment.nodup_dataFields
  unfold Attachment.ofJson
  simp only [bind_eq_ok_iff, pure_eq_ok_iff]
  refine ⟨_, optional_str (hfield ?_), _, optional_str (hfield ?_), _, optional_str (hfield ?_), _,
    optional_str (hfield ?_), _, optional_str (hfield ?_), _, optional_u64 h.lastmodTime (hfield ?_), _,
    optional_u64 h.byteCount (hfield ?_), _,
      required_eq (hfield (o := some (.obj (members attachment.dataFields))) ?_) rfl,
    _, optional_value (hdata ?_), _, optional_str (hdata ?_), _, optional_strs (hdata ?_), _,
      optional_str (hdata ?_), _, optional_str (hdata ?_), rfl⟩
  all_goals simp [fields, dataFields]

theorem mapM_attachments {attachments : List Attachment}
    (h : ∀ attachment ∈ attachments, attachment.WellTyped isFloat) :
    (mapFloatsItems f (attachments.map Attachment.toJson)).mapM Attachment.ofJson =
    .ok (attachments.map (Attachment.reread f)) := by
  induction attachments with
  | nil => rfl
  | cons attachment attachments ih =>
    obtain ⟨hattachment, hattachments⟩ := forall_mem_cons.1 h
    rw [map_cons, mapFloatsItems, mapM_cons, Attachment.ofJson_toJson hattachment, ih hattachments]
    rfl

variable {message : Message}

theorem Message.lookup_extra (h : message.Separate) {name : String} (hname : name ∈ fieldNames) :
    message.extra.lookup name = none := by
  refine lookup_eq_none_iff.2 fun header hheader => bne_iff_ne.2 ?_
  rintro rfl
  exact h header hheader hname

theorem Message.get?_toJson (h : message.Separate) (hmem : (key, o) ∈ message.fields) :
    (message.toJson.mapFloats f).get? key = o.map (mapFloats f) := by
  have hname : key ∈ message.fields.map Prod.fst := List.mem_map.2 ⟨_, hmem, rfl⟩
  have hlookup : (members message.fields ++ message.extra).lookup key = o := by
    rw [lookup_append, lookup_members message.nodup_fields hmem, lookup_extra h hname, or_none]
  rw [get?_mapFloats]
  exact congrArg _ hlookup

theorem Message.filter_headers (h : message.Separate) :
    ((message.toJson.mapFloats f).asObject.getD []).filter (fun header => header.1 ∉ fieldNames) =
      message.extra.map fun header => (header.1, header.2.mapFloats f) := by
  show (mapFloatsFields f (members message.fields ++ message.extra)).filter _ = _
  rw [mapFloatsFields_eq_map, map_append, filter_append]
  have hfields : ((members message.fields).map fun field => (field.1, field.2.mapFloats f)).filter
      (fun header => header.1 ∉ fieldNames) = [] := by
    refine filter_eq_nil_iff.2 fun field hfield => ?_
    obtain ⟨member, hmember, rfl⟩ := List.mem_map.1 hfield
    have hname : member.1 ∈ fieldNames := (keys_members_sublist message.fields).subset (List.mem_map_of_mem hmember)
    simpa using hname
  have hextra : (message.extra.map fun header => (header.1, header.2.mapFloats f)).filter
      (fun header => header.1 ∉ fieldNames) = message.extra.map fun header => (header.1, header.2.mapFloats f) := by
    refine filter_eq_self.2 fun field hfield => ?_
    obtain ⟨header, hheader, rfl⟩ := List.mem_map.1 hfield
    exact decide_eq_true (h header hheader)
  rw [hfields, hextra, nil_append]

/-- A message is read again from its JSON form up to its floats and the nulls of its attachments. -/
theorem Message.ofJson_toJson (h : message.WellTyped isFloat) (hseparate : message.Separate) :
    Message.ofJson (message.toJson.mapFloats f) = .ok (message.reread f) := by
  have hfield : ∀ {key : String} {o : Option Json}, (key, o) ∈ message.fields →
      (message.toJson.mapFloats f).get? key = o.map (mapFloats f) := get?_toJson hseparate
  have hattachments : optional (readList Attachment.ofJson) (message.toJson.mapFloats f) "attachments" =
      .ok (message.attachments.map fun attachments => attachments.map (Attachment.reread f)) := by
    refine optional_eq (hfield
      (o := message.attachments.map fun attachments => .arr (attachments.map Attachment.toJson))
      (by simp [fields])) (fun _ => by rintro ⟨⟩) fun attachments hmem => ?_
    exact mapM_attachments (h.attachments attachments hmem)
  unfold Message.ofJson
  simp only [bind_eq_ok_iff, pure_eq_ok_iff]
  refine ⟨_, required_eq (hfield (o := some (.str message.id)) ?_) rfl, _,
    required_eq (hfield (o := some (.str message.typ)) ?_) rfl, message.sender, optional_str (hfield ?_),
    message.toDids, optional_strs (hfield ?_), _, required_eq (hfield (o := some message.body) ?_) rfl, message.thid,
    optional_str (hfield ?_), message.pthid, optional_str (hfield ?_), message.createdTime,
    optional_u64 h.createdTime (hfield ?_), message.expiresTime, optional_u64 h.expiresTime (hfield ?_), _,
    hattachments, ?_⟩
  rotate_right
  · rw [filter_headers hseparate]
    rfl
  all_goals simp [fields]

/-! ## Messages that are read again as they are -/

/-- The JSON values of a message. -/
def Message.values (message : Message) : List Json :=
  message.body :: (message.extra.map Prod.snd ++ (message.attachments.getD []).filterMap Attachment.json)

theorem mapFloats_eq_null_iff : value.mapFloats f = .null ↔ value = .null := by
  cases value <;> simp [mapFloats]

theorem Attachment.reread_eq_self_iff : attachment.reread f = attachment ↔
    (∀ value ∈ attachment.json, ∀ text ∈ value.floats, f text = text) ∧ attachment.json ≠ some .null := by
  have hjson : attachment.reread f = attachment ↔
      (attachment.json.map (mapFloats f)).filter (· ≠ .null) = attachment.json := by
    constructor
    · exact fun h => congrArg Attachment.json h
    · intro h
      rw [reread, h]
  rw [hjson]
  cases attachment.json with
  | none => simp
  | some value =>
    by_cases hnull : value = .null
    · subst hnull
      simp [mapFloats]
    · have hkept : value.mapFloats f ≠ .null := fun h => hnull (mapFloats_eq_null_iff.1 h)
      rw [map_some, filter_some, if_pos (decide_eq_true hkept), Option.some.injEq, mapFloats_eq_self_iff]
      simp [hnull]

theorem map_eq_self_iff {g : α → α} {items : List α} : items.map g = items ↔ ∀ a ∈ items, g a = a := by
  constructor
  · intro h
    exact map_inj_left.1 (h.trans items.map_id.symm)
  · intro h
    exact (map_inj_left.2 h).trans items.map_id

/-- A message is read again as it is when its floats are, and none of its attachments is a null. -/
theorem Message.reread_eq_self_iff :
    message.reread f = message ↔ (∀ value ∈ message.values, ∀ text ∈ value.floats, f text = text) ∧
      ∀ attachment ∈ message.attachments.getD [], attachment.json ≠ some .null := by
  have hparts : message.reread f = message ↔ message.body.mapFloats f = message.body ∧
      (message.attachments.map fun attachments => attachments.map (Attachment.reread f)) = message.attachments ∧
      message.extra.map (fun header => (header.1, header.2.mapFloats f)) = message.extra := by
    constructor
    · exact fun h => ⟨congrArg Message.body h, congrArg Message.attachments h, congrArg Message.extra h⟩
    · rintro ⟨hbody, hattachments, hextra⟩
      rw [reread, hbody, hattachments, hextra]
  have hattachments : (message.attachments.map fun attachments => attachments.map (Attachment.reread f)) =
        message.attachments ↔
      ∀ attachment ∈ message.attachments.getD [], attachment.reread f = attachment := by
    cases message.attachments with
    | none => simp
    | some attachments =>
      rw [map_some, Option.some.injEq, map_eq_self_iff]
      rfl
  rw [hparts, hattachments, map_eq_self_iff, mapFloats_eq_self_iff]
  simp only [Attachment.reread_eq_self_iff, Prod.ext_iff, mapFloats_eq_self_iff, true_and, values,
    forall_mem_cons, forall_mem_append, List.forall_mem_map, mem_filterMap]
  constructor
  · rintro ⟨hbody, hattachments, hextra⟩
    refine ⟨⟨hbody, hextra, ?_⟩, fun attachment hmem => (hattachments attachment hmem).2⟩
    rintro value ⟨attachment, hmem, hjson⟩
    exact (hattachments attachment hmem).1 value hjson
  · rintro ⟨⟨hbody, hextra, hjson⟩, hnull⟩
    exact ⟨hbody, fun attachment hmem => ⟨fun value hvalue => hjson value ⟨attachment, hmem, hvalue⟩,
      hnull attachment hmem⟩, hextra⟩

end

end AffinidiTdk.Didcomm
