import Footprint.Decimal
import Footprint.Metrics

/-!
# Exposition of metrics

The text format in which a monitoring system collects metrics: for each metric a help line, a type
line and a line for every labelled value.
-/

namespace Footprint.Metrics

/-- A label of a value: its name and what it says. -/
def label (name value : String) : String :=
  "\x7b" ++ name ++ "=\"" ++ value ++ "\"\x7d"

/-- The lines that introduce a metric. -/
def heading (name type help : String) : List String :=
  ["# HELP " ++ name ++ " " ++ help, "# TYPE " ++ name ++ " " ++ type]

/-- The line of a value with the labels that `name` ends in. -/
def sample (name : String) (value : UInt64) : String :=
  name ++ " " ++ toString value

/-- The outcomes of calls with their labels and counts. -/
def outcomes (m : Metrics) : List (String × UInt64) :=
  ("ok", m.callsSucceeded) ::
    Failure.Kind.all.map fun kind => (kind.label, m.failures.get kind)

def boundText (bound : Duration) : String :=
  Duration.inUnit bound.nanos 9 ""

def lines (m : Metrics) : List String :=
  heading "addrprobe_calls_total" "counter" "Total number of discovery calls"
    ++ [sample "addrprobe_calls_total" m.callsTotal]
    ++ heading "addrprobe_calls_by_outcome" "counter" "Discovery calls by outcome"
    ++ m.outcomes.map (fun (outcome, count) =>
        sample ("addrprobe_calls_by_outcome" ++ label "outcome" outcome) count)
    ++ heading "addrprobe_blocks_granted_total" "counter" "Blocks granted to sandboxed code"
    ++ [sample "addrprobe_blocks_granted_total" m.blocksGranted]
    ++ heading "addrprobe_teardowns" "counter" "Isolated context teardowns by result"
    ++ [sample ("addrprobe_teardowns" ++ label "result" "completed") m.teardownsCompleted,
        sample ("addrprobe_teardowns" ++ label "result" "failed") m.teardownsFailed]
    ++ heading "addrprobe_active_calls" "gauge" "Discovery calls in flight"
    ++ [sample "addrprobe_active_calls" m.activeCalls]
    ++ heading "addrprobe_call_duration_seconds" "histogram" "Discovery call latency"
    ++ (bounds.zip m.buckets).map (fun (bound, count) =>
        sample ("addrprobe_call_duration_seconds_bucket" ++ label "le" (boundText bound)) count)
    ++ [sample ("addrprobe_call_duration_seconds_bucket" ++ label "le" "+Inf") m.durationCount,
        "addrprobe_call_duration_seconds_sum "
          ++ Decimal.ratioText m.durationSum.toNat 1000000,
        sample "addrprobe_call_duration_seconds_count" m.durationCount]

def exposition (m : Metrics) : String :=
  String.join (m.lines.map (· ++ "\n"))

end Footprint.Metrics
