import Mathlib.Data.List.Nodup
import Footprint.Metrics.Exposition
import Footprint.Proofs.Metrics.Recording
import Footprint.Proofs.Text.LineFeeds

/-!
# What an exposition shows

Every line of an exposition begins with a word: the name of a value with its labels, or a number sign if it
introduces a metric. No name stands in two lines, so that a name shows one value (`Shows`).
-/

namespace Footprint.Metrics

/-- Whether the line is that of a name: it begins with the name and a space. -/
def isLineOf (name line : String) : Bool :=
  (name ++ " ").toList.isPrefixOf line.toList

/-- The text has one line of the name, and behind the name stands the value. -/
def Shows (text name value : String) : Prop :=
  (Text.atLineFeeds text).filter (isLineOf name) = [name ++ " " ++ value]

/-! ## Lines and their first words -/

/-- The line begins with the word. -/
structure Begins (word line : String) : Prop where
  solid : ' ' ∉ word.toList
  whole : ∃ rest, line = word ++ " " ++ rest
  single : '\n' ∉ line.toList

theorem isLineOf_append (name value : String) : isLineOf name (name ++ " " ++ value) = true := by
  rw [isLineOf, List.isPrefixOf_iff_prefix]
  exact ⟨value.toList, by simp⟩

theorem isLineOf_empty (name : String) : isLineOf name "" = false := by
  simp [isLineOf]

theorem eq_of_append_space {a b s t : List Char} (ha : ' ' ∉ a) (hb : ' ' ∉ b)
    (h : a ++ ' ' :: s = b ++ ' ' :: t) : a = b := by
  have hword {w u : List Char} (hw : ' ' ∉ w) : (w ++ ' ' :: u).takeWhile (· ≠ ' ') = w := by
    rw [List.takeWhile_append_of_pos fun c hc => decide_eq_true (ne_of_mem_of_not_mem hc hw)]
    simp
  rw [← hword ha, h, hword hb]

/-- A line is that of its first word only. -/
theorem Begins.isLineOf_iff {word name line : String} (h : Begins word line) (hname : ' ' ∉ name.toList) :
    isLineOf name line = true ↔ word = name := by
  obtain ⟨rest, rfl⟩ := h.whole
  constructor
  · intro hline
    rw [isLineOf, List.isPrefixOf_iff_prefix] at hline
    obtain ⟨t, ht⟩ := hline
    have hchars : word.toList ++ ' ' :: rest.toList = name.toList ++ ' ' :: t := by simpa using ht.symm
    exact String.toList_inj.1 (eq_of_append_space h.solid hname hchars)
  · rintro rfl
    exact isLineOf_append word rest

variable {words lines : List String}

theorem length_filter_isLineOf (h : List.Forall₂ Begins words lines) {name : String}
    (hname : ' ' ∉ name.toList) : (lines.filter (isLineOf name)).length = words.count name := by
  induction h with
  | nil => rfl
  | cons hword hmore ih =>
    rename_i word line words lines
    rw [List.filter_cons, List.count_cons, ← ih]
    by_cases hbegins : word = name
    · simp [hbegins, (hword.isLineOf_iff hname).2 hbegins]
    · simp [hbegins, mt (hword.isLineOf_iff hname).1 hbegins]

theorem forall_of_begins (h : List.Forall₂ Begins words lines) :
    (∀ word ∈ words, ' ' ∉ word.toList) ∧ ∀ line ∈ lines, '\n' ∉ line.toList := by
  induction h with
  | nil => exact ⟨nofun, nofun⟩
  | cons hword hmore ih =>
    exact ⟨List.forall_mem_cons.2 ⟨hword.solid, ih.1⟩, List.forall_mem_cons.2 ⟨hword.single, ih.2⟩⟩

/-- A name that begins one line shows what stands there. -/
theorem shows_of_begins (h : List.Forall₂ Begins words lines) {name value : String}
    (honce : words.count name = 1) (hline : name ++ " " ++ value ∈ lines) :
    Shows (String.join (lines.map (· ++ "\n"))) name value := by
  obtain ⟨hsolid, hsingle⟩ := forall_of_begins h
  have hname : ' ' ∉ name.toList := hsolid name (List.count_pos_iff.1 (by omega))
  obtain ⟨line, hlines⟩ := List.length_eq_one_iff.1 ((length_filter_isLineOf h hname).trans honce)
  have hmem := List.mem_filter.2 ⟨hline, isLineOf_append name value⟩
  rw [hlines, List.mem_singleton] at hmem
  rw [Shows, Text.atLineFeeds_join hsingle, List.filter_append, hlines, ← hmem]
  simp [isLineOf_empty]

/-! ## The lines of an exposition -/

/-- The name of the count of outcomes with a label. -/
def outcomeName (l : String) : String :=
  "addrprobe_calls_by_outcome" ++ label "outcome" l

/-- The name of the count of teardowns with a result. -/
def teardownName (result : String) : String :=
  "addrprobe_teardowns" ++ label "result" result

/-- The name of the bucket with a bound. -/
def bucketName (le : String) : String :=
  "addrprobe_call_duration_seconds_bucket" ++ label "le" le

/-- The first words of an exposition's lines. -/
def firstWords : List String :=
  ["#", "#"] ++ ["addrprobe_calls_total"] ++ ["#", "#"] ++ labels.map outcomeName ++ ["#", "#"]
    ++ ["addrprobe_blocks_granted_total"] ++ ["#", "#"] ++ [teardownName "completed", teardownName "failed"]
    ++ ["#", "#"] ++ ["addrprobe_active_calls"] ++ ["#", "#"]
    ++ bounds.map (fun bound => bucketName (boundText bound))
    ++ [bucketName "+Inf", "addrprobe_call_duration_seconds_sum", "addrprobe_call_duration_seconds_count"]

/-- A word that can be a name: without spaces and line feeds. -/
def IsName (name : String) : Prop :=
  ' ' ∉ name.toList ∧ '\n' ∉ name.toList

instance (name : String) : Decidable (IsName name) :=
  inferInstanceAs (Decidable (_ ∧ _))

@[simp]
theorem isName_append {a b : String} : IsName (a ++ b) ↔ IsName a ∧ IsName b := by
  simp only [IsName, String.toList_append, List.mem_append, not_or]
  tauto

theorem isName_label {name value : String} (hname : IsName name) (hvalue : IsName value) :
    IsName (label name value) := by
  have hmarks : IsName "\x7b" ∧ IsName "=\"" ∧ IsName "\"\x7d" := by decide
  simp [label, hname, hvalue, hmarks]

theorem isName_outcomeName : ∀ l ∈ labels, IsName (outcomeName l) := by
  have hlabels : ∀ l ∈ labels, IsName l := by decide
  exact fun l hl => isName_append.2 ⟨by decide, isName_label (by decide) (hlabels l hl)⟩

theorem isName_teardownName {result : String} (h : IsName result) : IsName (teardownName result) :=
  isName_append.2 ⟨by decide, isName_label (by decide) h⟩

theorem isName_bucketName {le : String} (h : IsName le) : IsName (bucketName le) :=
  isName_append.2 ⟨by decide, isName_label (by decide) h⟩

theorem isName_boundText : ∀ bound ∈ bounds, IsName (boundText bound) := by decide

theorem begins_append {name value : String} (hname : IsName name) (hvalue : '\n' ∉ value.toList) :
    Begins name (name ++ " " ++ value) := by
  refine ⟨hname.1, ⟨value, rfl⟩, ?_⟩
  simp [hname.2, hvalue]

theorem lineFeed_not_mem_toDigits (n : Nat) : '\n' ∉ Nat.toDigits 10 n :=
  fun h => absurd (Nat.isDigit_of_mem_toDigits (by decide) (by decide) h) (by decide)

theorem begins_sample {name : String} (hname : IsName name) (w : UInt64) : Begins name (sample name w) := by
  refine begins_append hname ?_
  change '\n' ∉ w.toNat.repr.toList
  rw [Nat.toList_repr]
  exact lineFeed_not_mem_toDigits w.toNat

theorem begins_heading {name type help : String} (hname : '\n' ∉ name.toList) (htype : '\n' ∉ type.toList)
    (hhelp : '\n' ∉ help.toList) : List.Forall₂ Begins ["#", "#"] (heading name type help) := by
  have hmark : IsName "#" := by decide
  have hhelpMark : "# HELP " = "#" ++ " " ++ "HELP " := rfl
  have htypeMark : "# TYPE " = "#" ++ " " ++ "TYPE " := rfl
  have hlines : heading name type help =
      ["#" ++ " " ++ ("HELP " ++ name ++ " " ++ help), "#" ++ " " ++ ("TYPE " ++ name ++ " " ++ type)] := by
    rw [heading, hhelpMark, htypeMark]
    simp only [String.append_assoc]
  rw [hlines]
  refine .cons (begins_append hmark ?_) (.cons (begins_append hmark ?_) .nil)
  · simp [hname, hhelp]
  · simp [hname, htype]

theorem lineFeed_not_mem_positional (n : Nat) (place : Int) : '\n' ∉ (Decimal.positional n place).toList := by
  have hdigits := lineFeed_not_mem_toDigits n
  simp only [Decimal.positional]
  split
  · simp [hdigits, List.mem_replicate]
  · -- Every digit of the whole part and of the fraction is one of the padded digits.
    generalize hpadded : List.replicate _ '0' ++ Nat.toDigits 10 n = padded
    have hnone : '\n' ∉ padded := by
      rw [← hpadded]
      simp [hdigits, List.mem_replicate]
    have hwhole (k : Nat) : '\n' ∉ padded.take k := fun h => hnone (List.mem_of_mem_take h)
    have hfraction (k : Nat) : '\n' ∉ ((padded.drop k).reverse.dropWhile (· = '0')).reverse := by
      rw [List.mem_reverse]
      exact fun h => hnone (List.mem_of_mem_drop (List.mem_reverse.1 ((List.dropWhile_sublist _).subset h)))
    split
    · simp [hwhole]
    · simp [hwhole, hfraction]

theorem lineFeed_not_mem_ratioText (num den : Nat) : '\n' ∉ (Decimal.ratioText num den).toList := by
  rw [Decimal.ratioText]
  split
  · decide
  · exact lineFeed_not_mem_positional _ _

/-- Lines of values, each with the name that it begins with. -/
theorem begins_samples {α : Type} (as : List α) (name : α → String) (value : α → UInt64)
    (hnames : ∀ a ∈ as, IsName (name a)) :
    List.Forall₂ Begins (as.map name) (as.map fun a => sample (name a) (value a)) := by
  rw [List.forall₂_map_left_iff, List.forall₂_map_right_iff, List.forall₂_same]
  exact fun a ha => begins_sample (hnames a ha) (value a)

theorem begins_single (name : String) (hname : IsName name) (w : UInt64) :
    List.Forall₂ Begins [name] [sample name w] :=
  .cons (begins_sample hname w) .nil

/-- One metric more: the lines that introduce it and those of its values. -/
theorem begins_metric (h : List.Forall₂ Begins words lines) {names values : List String}
    (hvalues : List.Forall₂ Begins names values) (name type help : String)
    (hclean : '\n' ∉ name.toList ∧ '\n' ∉ type.toList ∧ '\n' ∉ help.toList) :
    List.Forall₂ Begins (words ++ ["#", "#"] ++ names) (lines ++ heading name type help ++ values) :=
  List.rel_append (List.rel_append h (begins_heading hclean.1 hclean.2.1 hclean.2.2)) hvalues

theorem map_fst_outcomes (m : Metrics) : m.outcomes.map (·.1) = labels := rfl

theorem begins_outcomes (m : Metrics) : List.Forall₂ Begins (labels.map outcomeName)
    (m.outcomes.map fun o => sample (outcomeName o.1) o.2) := by
  have hnames : labels.map outcomeName = m.outcomes.map fun o => outcomeName o.1 := by
    rw [← map_fst_outcomes m, List.map_map]
    exact List.map_congr_left fun _ _ => rfl
  rw [hnames]
  refine begins_samples m.outcomes (fun o => outcomeName o.1) (fun o => o.2) fun o ho => ?_
  refine isName_outcomeName o.1 ?_
  rw [← map_fst_outcomes m]
  exact List.mem_map_of_mem ho

theorem begins_buckets {m : Metrics} (h : m.buckets.length = bounds.length) :
    List.Forall₂ Begins (bounds.map fun bound => bucketName (boundText bound))
      ((bounds.zip m.buckets).map fun b => sample (bucketName (boundText b.1)) b.2) := by
  have hzip : (bounds.zip m.buckets).map (·.1) = bounds := List.map_fst_zip (by omega)
  have hnames : bounds.map (fun bound => bucketName (boundText bound)) =
      (bounds.zip m.buckets).map fun b => bucketName (boundText b.1) := by
    conv_lhs => rw [← hzip, List.map_map]
    exact List.map_congr_left fun _ _ => rfl
  rw [hnames]
  exact begins_samples (bounds.zip m.buckets) (fun b => bucketName (boundText b.1)) (fun b => b.2) fun b hb =>
    isName_bucketName (isName_boundText b.1 (List.of_mem_zip hb).1)

theorem begins_lines {m : Metrics} (h : m.buckets.length = bounds.length) :
    List.Forall₂ Begins firstWords m.lines := by
  have hcompleted :=
    begins_single (teardownName "completed") (isName_teardownName (by decide)) m.teardownsCompleted
  have hfailed := begins_single (teardownName "failed") (isName_teardownName (by decide)) m.teardownsFailed
  have hinfinite := begins_single (bucketName "+Inf") (isName_bucketName (by decide)) m.durationCount
  have hcount := begins_single "addrprobe_call_duration_seconds_count" (by decide) m.durationCount
  have hsumName : IsName "addrprobe_call_duration_seconds_sum" := by decide
  have hsum := begins_append hsumName (lineFeed_not_mem_ratioText m.durationSum.toNat 1000000)
  have hcalls := begins_metric .nil (begins_single "addrprobe_calls_total" (by decide) m.callsTotal)
    "addrprobe_calls_total" "counter" "Total number of discovery calls" (by decide)
  have houtcomes := begins_metric hcalls (begins_outcomes m)
    "addrprobe_calls_by_outcome" "counter" "Discovery calls by outcome" (by decide)
  have hblocks := begins_metric houtcomes
    (begins_single "addrprobe_blocks_granted_total" (by decide) m.blocksGranted)
    "addrprobe_blocks_granted_total" "counter" "Blocks granted to sandboxed code" (by decide)
  have hteardowns := begins_metric hblocks (List.rel_append hcompleted hfailed)
    "addrprobe_teardowns" "counter" "Isolated context teardowns by result" (by decide)
  have hactive := begins_metric hteardowns (begins_single "addrprobe_active_calls" (by decide) m.activeCalls)
    "addrprobe_active_calls" "gauge" "Discovery calls in flight" (by decide)
  have hbuckets := begins_metric hactive (begins_buckets h)
    "addrprobe_call_duration_seconds" "histogram" "Discovery call latency" (by decide)
  exact List.rel_append hbuckets (List.rel_append hinfinite (.cons hsum hcount))

/-- The names of an exposition's values. -/
def names : List String :=
  firstWords.filter (· ≠ "#")

theorem nodup_names : names.Nodup := by decide +kernel

/-- A name shows what stands in its line. -/
theorem shows_of_mem {m : Metrics} (h : m.buckets.length = bounds.length) {name value : String}
    (hname : name ∈ names) (hline : name ++ " " ++ value ∈ m.lines) : Shows (exposition m) name value := by
  have hcount : names.count name = firstWords.count name := List.count_filter (List.mem_filter.1 hname).2
  have honce : firstWords.count name = 1 := hcount.symm.trans (List.count_eq_one_of_mem nodup_names hname)
  exact shows_of_begins (begins_lines h) honce hline

/-! ## Snapshots -/

/-- The names of an exposition, each with the counter that it shows and with what that counts. -/
def exported (m : Metrics) : List (String × String × UInt64) :=
  [("addrprobe_calls_total", "calls_total", m.callsTotal),
   (outcomeName "ok", "calls_succeeded", m.callsSucceeded),
   (outcomeName "sandbox_setup", "errors_sandbox_setup", m.failures.sandboxSetup),
   (outcomeName "config", "errors_config", m.failures.config),
   (outcomeName "unresolvable_access", "errors_unresolvable_access", m.failures.unresolvableAccess),
   (outcomeName "execution_fault", "errors_execution_fault", m.failures.executionFault),
   (outcomeName "timeout", "errors_timeout", m.failures.timeout),
   (outcomeName "cancelled", "errors_cancelled", m.failures.cancelled),
   (outcomeName "invalid_code", "errors_invalid_code", m.failures.invalidCode),
   ("addrprobe_blocks_granted_total", "blocks_granted", m.blocksGranted),
   (teardownName "completed", "teardowns_completed", m.teardownsCompleted),
   (teardownName "failed", "teardowns_failed", m.teardownsFailed),
   ("addrprobe_active_calls", "active_calls", m.activeCalls),
   (bucketName "+Inf", "call_duration_count", m.durationCount),
   ("addrprobe_call_duration_seconds_count", "call_duration_count", m.durationCount)]

/-- Every name shows its counter. The sum of durations is shown in seconds. -/
structure ShowsCounters (m : Metrics) (text : String) : Prop where
  counters : ∀ entry ∈ exported m,
    m.counters.lookup entry.2.1 = some entry.2.2 ∧ Shows text entry.1 (toString entry.2.2)
  sum : m.counters.lookup "call_duration_sum_micros" = some m.durationSum ∧
    Shows text "addrprobe_call_duration_seconds_sum" (Decimal.ratioText m.durationSum.toNat 1000000)

theorem outcome_mem_lines {m : Metrics} {l : String} {w : UInt64} (h : (l, w) ∈ m.outcomes) :
    sample (outcomeName l) w ∈ m.lines := by
  have hline : ∃ outcome count, (outcome, count) ∈ m.outcomes ∧
      sample ("addrprobe_calls_by_outcome" ++ label "outcome" outcome) count = sample (outcomeName l) w :=
    ⟨l, w, h, rfl⟩
  simp only [lines, List.mem_append, List.mem_map, Prod.exists, hline, true_or, or_true]

theorem bucket_mem_lines {m : Metrics} {bound : Duration} {w : UInt64}
    (h : (bound, w) ∈ bounds.zip m.buckets) : sample (bucketName (boundText bound)) w ∈ m.lines := by
  have hline : ∃ bound' count, (bound', count) ∈ bounds.zip m.buckets ∧
      sample ("addrprobe_call_duration_seconds_bucket" ++ label "le" (boundText bound')) count =
        sample (bucketName (boundText bound)) w :=
    ⟨bound, w, h, rfl⟩
  simp only [lines, List.mem_append, List.mem_map, Prod.exists, hline, true_or, or_true]

theorem lookup_exported (m : Metrics) :
    ∀ entry ∈ exported m, m.counters.lookup entry.2.1 = some entry.2.2 := by
  simp only [exported, List.forall_mem_cons]
  exact ⟨rfl, rfl, rfl, rfl, rfl, rfl, rfl, rfl, rfl, rfl, rfl, rfl, rfl, rfl, rfl, List.forall_mem_nil _⟩

theorem exported_mem_lines (m : Metrics) : ∀ entry ∈ exported m, sample entry.1 entry.2.2 ∈ m.lines := by
  have houtcomes : ∀ o ∈ m.outcomes, sample (outcomeName o.1) o.2 ∈ m.lines :=
    fun _ ho => outcome_mem_lines ho
  simp only [outcomes, Failure.Kind.all, Failure.Kind.label, FailureCounts.get, List.map_cons, List.map_nil,
    List.forall_mem_cons] at houtcomes
  obtain ⟨hok, hsetup, hconfig, haccess, hfault, htimeout, hcancelled, hcode, -⟩ := houtcomes
  simp only [exported, List.forall_mem_cons]
  have hteardowns : ∀ line ∈
      [sample ("addrprobe_teardowns" ++ label "result" "completed") m.teardownsCompleted,
        sample ("addrprobe_teardowns" ++ label "result" "failed") m.teardownsFailed], line ∈ m.lines := by
    intro line hline
    simp only [lines, List.mem_append, hline, true_or, or_true]
  refine ⟨?_, hok, hsetup, hconfig, haccess, hfault, htimeout, hcancelled, hcode, ?_, ?_, ?_, ?_, ?_, ?_,
    List.forall_mem_nil _⟩
  · simp only [lines, List.mem_append, List.mem_singleton, true_or, or_true]
  · simp only [lines, List.mem_append, List.mem_singleton, true_or, or_true]
  · exact hteardowns _ (.head _)
  · exact hteardowns _ (.tail _ (.head _))
  · simp only [lines, List.mem_append, List.mem_singleton, true_or, or_true]
  · exact List.mem_append_right _ (.head _)
  · exact List.mem_append_right _ (.tail _ (.tail _ (.head _)))

theorem sum_mem_lines (m : Metrics) : "addrprobe_call_duration_seconds_sum" ++ " " ++
    Decimal.ratioText m.durationSum.toNat 1000000 ∈ m.lines :=
  List.mem_append_right _ (.tail _ (.head _))

theorem exported_mem_names (m : Metrics) : ∀ entry ∈ exported m, entry.1 ∈ names := by
  have hnames : ∀ entry ∈ exported zero, entry.1 ∈ names := by decide +kernel
  simp only [exported, List.forall_mem_cons] at hnames ⊢
  exact hnames

theorem showsCounters_exposition {m : Metrics} (h : m.buckets.length = bounds.length) :
    ShowsCounters m (exposition m) where
  counters entry hentry :=
    ⟨lookup_exported m entry hentry,
      shows_of_mem h (exported_mem_names m entry hentry) (exported_mem_lines m entry hentry)⟩
  sum := ⟨rfl, shows_of_mem h (by decide +kernel) (sum_mem_lines m)⟩

/-! ## Recordings -/

/-- The text of a count, which is a word of 64 bits. -/
def countText (n : Nat) : String :=
  toString (UInt64.ofNat n)

/-- The text partitions the recorded outcomes: by their labels, and by the bounds of their durations. Counts
are shown modulo `2 ^ 64`, which makes no difference to fewer outcomes. -/
structure Partitions (rs : List Recording) (text : String) : Prop where
  outcomes : ∀ l ∈ labels, Shows text (outcomeName l) (countText (rs.countP (·.isLabelled l)))
  calls : Shows text "addrprobe_calls_total" (countText (rs.countP Recording.isOutcome))
  whole : (labels.map fun l => rs.countP (·.isLabelled l)).sum = rs.countP Recording.isOutcome
  buckets : ∀ bound ∈ bounds,
    Shows text (bucketName (boundText bound)) (countText (rs.countP (·.isWithin bound)))
  ascending : bounds.Pairwise fun bound bound' =>
    bound.nanos < bound'.nanos ∧ rs.countP (·.isWithin bound) ≤ rs.countP (·.isWithin bound')
  capped : ∀ bound ∈ bounds, rs.countP (·.isWithin bound) ≤ rs.countP Recording.isOutcome
  infinite : Shows text (bucketName "+Inf") (countText (rs.countP Recording.isOutcome))
  count : Shows text "addrprobe_call_duration_seconds_count" (countText (rs.countP Recording.isOutcome))
  sum : Shows text "addrprobe_call_duration_seconds_sum"
    (Decimal.ratioText ((rs.map Recording.micros).sum % UInt64.size) 1000000)
  exact : rs.countP Recording.isOutcome < UInt64.size →
    ∀ n ≤ rs.countP Recording.isOutcome, countText n = toString n

theorem outcomes_recorded (rs : List Recording) : (recorded rs).outcomes =
    labels.map fun l => (l, UInt64.ofNat (rs.countP (·.isLabelled l))) := by
  simp only [outcomes, Failure.Kind.all, labels, List.map_cons, List.map_nil, callsSucceeded_recorded,
    failures_recorded, Failure.Kind.label]

theorem zip_buckets_recorded (rs : List Recording) : bounds.zip (recorded rs).buckets =
    bounds.map fun bound => (bound, UInt64.ofNat (rs.countP (·.isWithin bound))) := by
  rw [buckets_recorded]
  conv_lhs => rw [← List.map_id bounds]
  exact List.zip_map'

/-- Whatever is recorded about calls, the exposition partitions their outcomes and shows the snapshot. -/
theorem exposition_partitions (rs : List Recording) :
    Partitions rs (exposition (recorded rs)) ∧ ShowsCounters (recorded rs) (exposition (recorded rs)) := by
  have hlength : (recorded rs).buckets.length = bounds.length := by
    rw [buckets_recorded, List.length_map]
  have hcounters := showsCounters_exposition hlength
  refine ⟨?_, hcounters⟩
  constructor
  case outcomes =>
    intro l hl
    have hnames : ∀ l ∈ labels, outcomeName l ∈ names := by decide +kernel
    refine shows_of_mem hlength (hnames l hl) (outcome_mem_lines ?_)
    rw [outcomes_recorded]
    exact List.mem_map_of_mem hl
  case buckets =>
    intro bound hbound
    have hnames : ∀ bound ∈ bounds, bucketName (boundText bound) ∈ names := by decide +kernel
    refine shows_of_mem hlength (hnames bound hbound) (bucket_mem_lines ?_)
    rw [zip_buckets_recorded]
    exact List.mem_map_of_mem hbound
  case whole => exact sum_countP_isLabelled rs
  case ascending =>
    have hbounds : bounds.Pairwise fun bound bound' => bound.nanos < bound'.nanos := by decide
    exact hbounds.imp fun h => ⟨h, countP_isWithin_le_of_le h.le rs⟩
  case capped => exact fun bound _ => countP_isWithin_le bound rs
  case calls =>
    have hshown := (hcounters.counters _ (List.mem_of_getElem? (i := 0) rfl)).2
    rwa [callsTotal_recorded] at hshown
  case infinite =>
    have hshown := (hcounters.counters _ (List.mem_of_getElem? (i := 13) rfl)).2
    rwa [durationCount_recorded] at hshown
  case count =>
    have hshown := (hcounters.counters _ (List.mem_of_getElem? (i := 14) rfl)).2
    rwa [durationCount_recorded] at hshown
  case sum =>
    have hshown := hcounters.sum.2
    rwa [durationSum_recorded, UInt64.toNat_ofNat'] at hshown
  case exact =>
    intro hfew n hn
    change toString (UInt64.ofNat n).toNat = toString n
    rw [UInt64.toNat_ofNat_of_lt' (by omega)]

end Footprint.Metrics
