import Footprint.Audit.Entry
import Footprint.Proofs.Forms.RoundTrip
import Footprint.Proofs.Text.LineFeeds

/-!
# Audit files line by line

The text that records append to an audit file has one line for each of them, whatever their texts are: no
character below the space is ever written as itself, so the only line feeds are those that end the lines. Each
line is one JSON object, and its members tell the event of its record (`Tells`).
-/

namespace Footprint.Audit

open Json Forms

/-- The members of an object tell an event. What an event may be without is a member just if the event has
it. -/
structure Tells (fields : List (String × Value)) (e : Event) : Prop where
  distinct : (fields.map (·.1)).Nodup
  eventType : (fields.lookup "event_type").map eventType.read = some (.ok e.eventType)
  severity : (fields.lookup "severity").map severity.read = some (.ok e.severity)
  details : (fields.lookup "details").map Codec.string.read = some (.ok e.details)
  correlation : (fields.lookup "correlation").map correlation.codec.read = some (.ok e.correlation)
  errorKind : (fields.lookup "error_kind").map Codec.string.read = e.errorKind.map .ok
  blocks : (fields.lookup "accessed_blocks").map (Codec.list .address).read = e.blocks.map .ok

/-- The line is a whole JSON object, and its members tell the event. -/
def LineOf (line : String) (e : Event) : Prop :=
  ∃ fields, Parse.document line.toList = (.record fields, some []) ∧ Tells fields e

/-- The process id of an event, if it has one, is an integer of 32 bits. -/
def Event.Narrow (e : Event) : Prop :=
  ∀ i ∈ e.correlation.pid, Codec.IsSigned32 i

/-! ## The values of an entry -/

theorem read_eventType (t : EventType) : eventType.read (.text t.name) = .ok t := by
  refine Codec.read_names ?_
  cases t
  all_goals rfl

theorem read_severity (s : Severity) : severity.read (.text s.name) = .ok s := by
  refine Codec.read_names ?_
  cases s
  all_goals rfl

theorem roundTrips_correlation {c : Correlation} (h : ∀ i ∈ c.pid, Codec.IsSigned32 i) :
    correlation.codec.RoundTrips c :=
  RecordForm.roundTrips (by decide)
    (.cons (Field.roundTrips_mandatory _ _ (Codec.roundTrips_text _ _))
      (.cons (Field.roundTrips_mandatory _ _ (Codec.roundTrips_text _ _))
      (.cons (Field.roundTrips_defaulted _ _ (roundTrips_optional_signed32 h)) .nil))) rfl

/-! ## The members of an entry -/

section Optional

variable {α : Type} {codec : Codec α} {o : Option α}

theorem plain_optionalMember (name : String) (h : ∀ a ∈ o, codec.RoundTrips a) :
    ∀ m ∈ Event.optionalMember name codec o, m.2.Plain := by
  cases o with
  | none => nofun
  | some a =>
    intro m hm
    rw [List.mem_singleton.1 hm]
    exact (h a rfl).plain

theorem lookup_cons_eq_if (key name : String) (v : Value) (members : List (String × Value)) :
    ((name, v) :: members).lookup key = if key = name then some v else members.lookup key := by
  by_cases h : key = name
  · simp [h]
  · have hne : (key == name) = false := beq_false_of_ne h
    simp [List.lookup_cons, hne, h]

theorem lookup_optionalMember (name key : String) (codec : Codec α) (o : Option α) :
    (Event.optionalMember name codec o).lookup key = if key = name then o.map codec.write else none := by
  cases o with
  | none => simp [Event.optionalMember]
  | some a => exact lookup_cons_eq_if key name _ []

theorem map_read_write (h : ∀ a ∈ o, codec.RoundTrips a) :
    (o.map codec.write).map codec.read = o.map .ok := by
  cases o with
  | none => rfl
  | some a => exact congrArg some (h a rfl).read

end Optional

variable {e : Event} {moment : Moment} {processId : UInt32}

/-- The members of the entry of an event. -/
def Event.fields (e : Event) (moment : Moment) (processId : UInt32) : List (String × Value) :=
  e.leadingMembers ++ [("process_id", .int processId.toNat), ("severity", .text e.severity.name),
    ("timestamp", .word moment.millis)]

theorem roundTrips_blocks (e : Event) : ∀ blocks ∈ e.blocks, (Codec.list .address).RoundTrips blocks :=
  fun _ _ => Codec.roundTrips_list fun a _ => Codec.roundTrips_word "u64" a

theorem roundTrips_errorKind (e : Event) : ∀ kind ∈ e.errorKind, Codec.string.RoundTrips kind :=
  fun kind _ => Codec.roundTrips_text "a string" kind

theorem plain_fields (h : e.Narrow) : ∀ m ∈ e.fields moment processId, m.2.Plain := by
  have hcorrelation : (Value.record e.correlation.members).Plain := (roundTrips_correlation h).plain
  have hblocks := plain_optionalMember "accessed_blocks" (roundTrips_blocks e)
  have herror := plain_optionalMember "error_kind" (roundTrips_errorKind e)
  intro m hm
  simp only [Event.fields, Event.leadingMembers, List.mem_append, List.mem_cons, List.not_mem_nil,
    or_false] at hm
  rcases hm with (((hm | rfl | rfl) | hm) | rfl) | rfl | rfl | rfl
  · exact hblocks m hm
  · exact hcorrelation
  · exact Value.plain_text _
  · exact herror m hm
  · exact Value.plain_text _
  · exact Value.plain_int _
  · exact Value.plain_text _
  · exact Value.plain_int _

theorem nodup_fields : ((e.fields moment processId).map (·.1)).Nodup := by
  cases hb : e.blocks
  all_goals
    cases hk : e.errorKind
    all_goals simp [Event.fields, Event.leadingMembers, Event.optionalMember, hb, hk]

theorem tells_fields (h : e.Narrow) : Tells (e.fields moment processId) e := by
  have hcorrelation : correlation.codec.read (.record e.correlation.members) = .ok e.correlation :=
    (roundTrips_correlation h).read
  have hdetails : Codec.string.read (.text e.details) = .ok e.details :=
    (Codec.roundTrips_text "a string" e.details).read
  constructor
  case distinct => exact nodup_fields
  all_goals
    simp only [Event.fields, Event.leadingMembers, List.lookup_append, lookup_optionalMember,
      lookup_cons_eq_if, List.lookup_nil, String.reduceEq, if_true, if_false, Option.none_or,
      Option.or_none, Option.map_some]
  case errorKind => exact map_read_write (roundTrips_errorKind e)
  case blocks => exact map_read_write (roundTrips_blocks e)
  case correlation => rw [hcorrelation]
  case details => rw [hdetails]
  case eventType => rw [read_eventType]
  case severity => rw [read_severity]

/-! ## Files -/

/-- A record's line without the line feed that ends it. -/
def Record.text (r : Record) : String :=
  (r.event.entry r.moment r.processId).render

theorem lineOf_text {r : Record} (h : r.event.Narrow) : LineOf r.text r.event :=
  ⟨r.event.fields r.moment r.processId, parse_render (Value.plain_record (plain_fields h)), tells_fields h⟩

theorem lineFeed_not_mem_text {r : Record} (h : r.event.Narrow) : '\n' ∉ r.text.toList := by
  have hvisible := visible_render (r.event.entry r.moment r.processId) (Value.plain_record (plain_fields h))
  rw [Record.text, Value.render, String.toList_ofList]
  exact fun hmem => absurd (hvisible '\n' hmem) (by decide)

/-- A file to which records were appended has one line for each of them, in their order, and nothing behind
the last one. Each line is one JSON object that tells the event of its record: its type, severity, details and
ids, and the error kind and the blocks if and only if it has them. -/
theorem atLineFeeds_fileText {records : List Record} (h : ∀ r ∈ records, r.event.Narrow) :
    ∃ lines, Text.atLineFeeds (fileText records) = lines ++ [""] ∧
      List.Forall₂ (fun line r => LineOf line r.event) lines records := by
  refine ⟨records.map Record.text, ?_, ?_⟩
  · have hlines : ∀ line ∈ records.map Record.text, '\n' ∉ line.toList := by
      intro line hline
      obtain ⟨r, hr, rfl⟩ := List.mem_map.1 hline
      exact lineFeed_not_mem_text (h r hr)
    rw [← Text.atLineFeeds_join hlines, List.map_map]
    rfl
  · rw [List.forall₂_map_left_iff, List.forall₂_same]
    exact fun r hr => lineOf_text (h r hr)

/-- Two events with line feeds, quotes and a control in their texts, one of them with the largest address. -/
theorem atLineFeeds_fileText_of_awkward :
    let c : Correlation := ⟨"a\nb", "\"", some (-1)⟩
    let failed : Event := { Event.plain .discoveryEnd c "no\n\\file\x01" with errorKind := some "con\nfig" }
    let done : Event := { Event.plain .discoveryEnd c "\r\n" with blocks := some [0xffffffffffffffff, 0] }
    ∃ first second,
      Text.atLineFeeds (fileText [⟨failed, default, 1⟩, ⟨done, default, 1⟩]) = [first, second, ""] ∧
        LineOf first failed ∧ LineOf second done := by
  intro c failed done
  have hnarrow : ∀ r ∈ [(⟨failed, default, 1⟩ : Record), ⟨done, default, 1⟩], r.event.Narrow := by
    simp [Event.Narrow, failed, done, c, Event.plain, Codec.IsSigned32]
  obtain ⟨lines, hlines, htell⟩ := atLineFeeds_fileText hnarrow
  obtain _ | ⟨hfirst, _ | ⟨hsecond, _ | _⟩⟩ := htell
  exact ⟨_, _, hlines, hfirst, hsecond⟩

end Footprint.Audit
