import DeclarationWatch.Ledger.Token
import DeclarationWatch.Proofs.Json.Decoding
import DeclarationWatch.Proofs.Time.Timestamp

namespace DeclarationWatch

section Times

variable {levels : Nat} {t : Time.Instant}

theorem Json.Decoder.time_timeJson (h : t.HasTimestamp) (levels : Nat) :
    time levels (nodeOf (Item.timeJson t)) = .ok t := by
  have hread : Time.Instant.ofText? t.text = some t := Time.Instant.ofText?_text h
  simp [time, Item.timeJson, nodeOf, string, hread, bind, Except.bind]

theorem Json.Decoder.hasTimestamp_of_time {node : Node} (h : time levels node = .ok t) :
    t.HasTimestamp := by
  simp only [time, bind_eq_ok] at h
  obtain ⟨text, -, h⟩ := h
  split at h
  · rename_i read hread
    cases h
    exact .of_ofTimestamp? hread
  · cases h

-- A time that may be missing is missing, or a time.
theorem Json.Decoder.optional_time_timeJson {last : Option Time.Instant}
    (h : ∀ t ∈ last, t.HasTimestamp) (levels : Nat) :
    optional time levels (nodeOf ((last.map Item.timeJson).getD .null)) = .ok last := by
  cases last with
  | none => rfl
  | some t =>
      have htime := time_timeJson (h t rfl) levels
      simp only [Item.timeJson, nodeOf] at htime
      simp [optional, Item.timeJson, nodeOf, htime, Except.map]

theorem Json.Decoder.hasTimestamp_of_optional_time {node : Node} {last : Option Time.Instant}
    (h : optional time levels node = .ok last) : ∀ t ∈ last, t.HasTimestamp := by
  unfold optional at h
  split at h
  · cases h
    simp
  · obtain ⟨t, ht, rfl⟩ := map_eq_ok.mp h
    intro t' ht'
    cases ht'
    exact hasTimestamp_of_time ht

end Times

namespace Item

-- An item whose parts a text can tell.
structure Told (item : Item) : Prop where
  snapshot : item.snapshot.Ascending
  created : item.created.HasTimestamp
  expiry : item.expiry.HasTimestamp
  lastPolled : ∀ t ∈ item.lastPolled, t.HasTimestamp

-- What has been read of an item so far.
structure Draft.Told (draft : Draft) : Prop where
  snapshot : ∀ snapshot ∈ draft.snapshot, snapshot.Ascending
  created : ∀ t ∈ draft.created, t.HasTimestamp
  expiry : ∀ t ∈ draft.expiry, t.HasTimestamp
  lastPolled : ∀ t ∈ draft.lastPolled.join, t.HasTimestamp

variable {draft next : Draft} {item : Item} {levels : Nat} {node : Json.Node}

theorem Draft.told_empty : Draft.Told {} := by constructor <;> simp

theorem Draft.Told.store (h : draft.Told) {field : Json.Field Draft} (hfield : field ∈ fields)
    (hstore : field.store draft levels node = .ok next) : next.Told := by
  obtain ⟨hsnapshot, hcreated, hexpiry, hlast⟩ := h
  simp only [fields, List.mem_cons, List.not_mem_nil, or_false] at hfield
  rcases hfield with rfl | rfl | rfl | rfl | rfl | rfl
  all_goals obtain ⟨value, hvalue, rfl⟩ := Json.Decoder.map_eq_ok.mp hstore
  · exact ⟨hsnapshot, hcreated, hexpiry, hlast⟩
  · refine ⟨fun snapshot hread => ?_, hcreated, hexpiry, hlast⟩
    cases hread
    exact Json.Decoder.ascending_of_table hvalue
  · exact ⟨hsnapshot, hcreated, hexpiry, hlast⟩
  · refine ⟨hsnapshot, fun t hread => ?_, hexpiry, hlast⟩
    cases hread
    exact Json.Decoder.hasTimestamp_of_time hvalue
  · refine ⟨hsnapshot, hcreated, fun t hread => ?_, hlast⟩
    cases hread
    exact Json.Decoder.hasTimestamp_of_time hvalue
  · exact ⟨hsnapshot, hcreated, hexpiry, Json.Decoder.hasTimestamp_of_optional_time hvalue⟩

theorem told_of_decode (h : decode (levels + 1) node = .ok item) : item.Told := by
  simp only [decode, Json.Decoder.bind_eq_ok] at h
  obtain ⟨draft, hdraft, h⟩ := h
  obtain ⟨hsnapshot, hcreated, hexpiry, hlast⟩ := Json.Decoder.record_preserves Draft.Told
    (fun _ hfield _ _ _ _ htold hstore => htold.store hfield hstore) Draft.told_empty hdraft
  split at h
  · rename_i hid hread hcomplete hread' hread''
    cases h
    exact ⟨hsnapshot _ hread, hcreated _ hread', hexpiry _ hread'', hlast⟩
  · cases h

theorem exact_toJson (item : Item) : item.toJson.Exact := by
  have hsnapshot : Json.Exact
      (.object (item.snapshot.map fun pair => (pair.1, .string pair.2))) := by
    refine (Json.exactMembers_iff _).mpr fun pair hpair => ?_
    obtain ⟨known, -, rfl⟩ := List.mem_map.mp hpair
    trivial
  have hlast : Json.Exact ((item.lastPolled.map timeJson).getD .null) := by
    cases item.lastPolled <;> trivial
  exact ⟨trivial, hsnapshot, trivial, trivial, trivial, hlast, trivial⟩

theorem decode_nodeOf (h : item.Told) (levels : Nat) :
    decode (levels + 2) (Json.nodeOf item.toJson) = .ok item := by
  have hsnapshot := Json.Decoder.table_nodeOf Json.Decoder.string levels Json.string h.snapshot
    fun _ _ => rfl
  have hcreated := Json.Decoder.time_timeJson h.created (levels + 1)
  have hexpiry := Json.Decoder.time_timeJson h.expiry (levels + 1)
  have hlast := Json.Decoder.optional_time_timeJson h.lastPolled (levels + 1)
  simp only [Json.nodeOf] at hsnapshot
  simp [decode, toJson, Json.nodeOf, Json.membersOf, Json.Decoder.record, Json.Decoder.recordObject,
    Json.Decoder.recordMembers, fields, Json.Field.required, Json.Decoder.string,
    Json.Decoder.bool, hsnapshot, hcreated, hexpiry, hlast, Json.Decoder.close, Except.map, bind,
    Except.bind]

-- Whatever its text was, an item is read back from the text that is written of it.
theorem ofText_text {s : String} (h : ofText s = .ok item) : ofText item.text = .ok item := by
  unfold ofText text
  rw [Json.decodeText_text decode item.toJson item.exact_toJson]
  exact decode_nodeOf (told_of_decode (Json.decode_of_decodeText h)) 125

end Item

namespace ScheduleToken

structure Told (token : ScheduleToken) : Prop where
  scheduled : token.scheduled.HasTimestamp
  acquired : token.acquired.HasTimestamp

structure Draft.Told (draft : Draft) : Prop where
  scheduled : ∀ t ∈ draft.scheduled, t.HasTimestamp
  acquired : ∀ t ∈ draft.acquired, t.HasTimestamp

variable {draft next : Draft} {token : ScheduleToken} {levels : Nat} {node : Json.Node}

theorem Draft.told_empty : Draft.Told {} := by constructor <;> simp

theorem Draft.Told.store (h : draft.Told) {field : Json.Field Draft} (hfield : field ∈ fields)
    (hstore : field.store draft levels node = .ok next) : next.Told := by
  obtain ⟨hscheduled, hacquired⟩ := h
  simp only [fields, List.mem_cons, List.not_mem_nil, or_false] at hfield
  rcases hfield with rfl | rfl | rfl
  all_goals obtain ⟨value, hvalue, rfl⟩ := Json.Decoder.map_eq_ok.mp hstore
  · exact ⟨hscheduled, hacquired⟩
  · refine ⟨fun t hread => ?_, hacquired⟩
    cases hread
    exact Json.Decoder.hasTimestamp_of_time hvalue
  · refine ⟨hscheduled, fun t hread => ?_⟩
    cases hread
    exact Json.Decoder.hasTimestamp_of_time hvalue

theorem told_of_decode (h : decode (levels + 1) node = .ok token) : token.Told := by
  simp only [decode, Json.Decoder.bind_eq_ok] at h
  obtain ⟨draft, hdraft, h⟩ := h
  obtain ⟨hscheduled, hacquired⟩ := Json.Decoder.record_preserves Draft.Told
    (fun _ hfield _ _ _ _ htold hstore => htold.store hfield hstore) Draft.told_empty hdraft
  split at h
  · rename_i hjob hread hread'
    cases h
    exact ⟨hscheduled _ hread, hacquired _ hread'⟩
  · cases h

theorem decode_nodeOf (h : token.Told) (levels : Nat) :
    decode (levels + 1) (Json.nodeOf token.toJson) = .ok token := by
  have hscheduled := Json.Decoder.time_timeJson h.scheduled levels
  have hacquired := Json.Decoder.time_timeJson h.acquired levels
  simp [decode, toJson, Json.nodeOf, Json.membersOf, Json.Decoder.record, Json.Decoder.recordObject,
    Json.Decoder.recordMembers, fields, Json.Field.required, Json.Decoder.string, hscheduled,
    hacquired, Json.Decoder.close, Except.map, bind, Except.bind]

theorem ofText_text {s : String} (h : ofText s = .ok token) : ofText token.text = .ok token := by
  unfold ofText text
  rw [Json.decodeText_text decode token.toJson ⟨trivial, trivial, trivial, trivial⟩]
  exact decode_nodeOf (told_of_decode (Json.decode_of_decodeText h)) 126

end ScheduleToken

def Item.normalText (s : String) : Except Json.Fault String := (Item.ofText s).map Item.text

def ScheduleToken.normalText (s : String) : Except Json.Fault String :=
  (ScheduleToken.ofText s).map ScheduleToken.text

-- Items and marks outlive their texts. The text of what has been read, as an object or as an array
-- and with its times in any spelling, comes back as the same item or mark, and the new text is the
-- normal one.
theorem ledgerText_reads_back (s : String) :
    (∀ item, Item.ofText s = .ok item → Item.ofText item.text = .ok item) ∧
      (∀ token, ScheduleToken.ofText s = .ok token → ScheduleToken.ofText token.text = .ok token) ∧
      (∀ t, Item.normalText s = .ok t → Item.normalText t = .ok t) ∧
      ∀ t, ScheduleToken.normalText s = .ok t → ScheduleToken.normalText t = .ok t := by
  refine ⟨fun item => Item.ofText_text, fun token => ScheduleToken.ofText_text, fun t h => ?item,
    fun t h => ?token⟩
  case item =>
    obtain ⟨item, hread, rfl⟩ := Json.Decoder.map_eq_ok.mp h
    exact Json.Decoder.map_eq_ok.mpr ⟨item, Item.ofText_text hread, rfl⟩
  case token =>
    obtain ⟨token, hread, rfl⟩ := Json.Decoder.map_eq_ok.mp h
    exact Json.Decoder.map_eq_ok.mpr ⟨token, ScheduleToken.ofText_text hread, rfl⟩

-- A leap second, nine digits, and offsets that carry the days into other years: of an item as an
-- array, and of a mark with its members in another order.
def shiftedItem : String :=
  "[\"GB\\u0031\", \x7b\"b\":\"\\\"\",\"a\":\"\"\x7d, false," ++
    " \"2024-12-31T23:59:60.123456789-00:30\", \"9999-12-31 23:59:59.5-01:00\", null]"

def shiftedItem.normal : String :=
  "\x7b\"id\":\"GB1\",\"gmrs\":\x7b\"a\":\"\",\"b\":\"\\\"\"\x7d,\"complete\":false," ++
    "\"created\":\"2025-01-01T00:29:60.123456789Z\",\"expiry\":\"+10000-01-01T00:59:59.500Z\"," ++
    "\"last_polled\":null\x7d"

def shiftedToken : String :=
  "\x7b\"acquired_at\":\"2024-03-01T00:00:00+01:00\",\"job_name\":\"j\"," ++
    "\"scheduled_time\":\"0000-01-01t00:30:00.0000010+01:00\"\x7d"

def shiftedToken.normal : String :=
  "\x7b\"job_name\":\"j\",\"scheduled_time\":\"-0001-12-31T23:30:00.000001Z\"," ++
    "\"acquired_at\":\"2024-02-29T23:00:00Z\"\x7d"

theorem ledgerText_reads_back_shifted :
    Item.normalText shiftedItem = .ok shiftedItem.normal ∧
      Item.normalText shiftedItem.normal = .ok shiftedItem.normal ∧
      ScheduleToken.normalText shiftedToken = .ok shiftedToken.normal ∧
      ScheduleToken.normalText shiftedToken.normal = .ok shiftedToken.normal ∧
      (∃ item, Item.ofText shiftedItem = .ok item ∧ Item.ofText shiftedItem.normal = .ok item) ∧
      ∃ token, ScheduleToken.ofText shiftedToken = .ok token ∧
        ScheduleToken.ofText shiftedToken.normal = .ok token := by
  have hitem : Item.normalText shiftedItem = .ok shiftedItem.normal :=
    Json.Decoder.eq_ok_of_toOption (by decide +kernel)
  have htoken : ScheduleToken.normalText shiftedToken = .ok shiftedToken.normal :=
    Json.Decoder.eq_ok_of_toOption (by decide +kernel)
  obtain ⟨hitems, -, hitemTexts, -⟩ := ledgerText_reads_back shiftedItem
  obtain ⟨-, htokens, -, htokenTexts⟩ := ledgerText_reads_back shiftedToken
  obtain ⟨item, hread, hwritten⟩ := Json.Decoder.map_eq_ok.mp hitem
  obtain ⟨token, hread', hwritten'⟩ := Json.Decoder.map_eq_ok.mp htoken
  exact ⟨hitem, hitemTexts _ hitem, htoken, htokenTexts _ htoken,
    ⟨item, hread, hwritten ▸ hitems item hread⟩, ⟨token, hread', hwritten' ▸ htokens token hread'⟩⟩

end DeclarationWatch
