/-
This file proves that the statistics count every gate once, in the place of its number of
references.

A histogram that recorded some sizes, in any order, counts each size as often as it was recorded, and
it is just long enough for the largest one. Every gate that the statistics meet is recorded in the
histogram of its kind. So the counts in a histogram add up to the number of gates of the kind, and
weighted by the sizes to the number of their references.
-/

import Combinational.Proofs.SignalPaths
import Mathlib.Algebra.BigOperators.Group.Finset.Basic

namespace Combinational

/-! ### Histograms of some sizes -/

namespace Histogram

/-- The histogram has recorded some sizes. -/
structure IsOf (histogram : Histogram) (sizes : List Nat) : Prop where
  /-- Each size is counted as often as it was recorded. -/
  count : ∀ size, histogram.count size = sizes.count size
  /-- The histogram is long enough for all the sizes, and not longer. -/
  size_le_iff : ∀ bound, histogram.size ≤ bound ↔ ∀ size ∈ sizes, size < bound

theorem isOf_nil : IsOf #[] [] where
  count _ := rfl
  size_le_iff bound := iff_of_true (Nat.zero_le bound) fun _ member => absurd member List.not_mem_nil

theorem IsOf.record {histogram : Histogram} {sizes : List Nat} (recorded : histogram.IsOf sizes)
    (size : Nat) : (histogram.record size).IsOf (sizes ++ [size]) where
  count other := by
    rw [count_record, recorded.count, List.count_append, List.count_singleton]
    simp only [beq_iff_eq]
  size_le_iff bound := by
    rw [size_record, Nat.max_le, recorded.size_le_iff, List.forall_mem_append,
      List.forall_mem_singleton, Nat.succ_le_iff]

variable {histogram : Histogram} {sizes : List Nat} (recorded : histogram.IsOf sizes)

include recorded

theorem IsOf.size_of_nil (none : sizes = []) : histogram.size = 0 := by
  refine Nat.le_zero.mp ((recorded.size_le_iff 0).mpr fun size member => ?_)
  rw [none] at member
  cases member

/-- The histogram is one longer than the largest size. -/
theorem IsOf.exists_size (some : sizes ≠ []) :
    ∃ largest, IsGreatest {size | size ∈ sizes} largest ∧ histogram.size = largest + 1 := by
  obtain ⟨attained, bounds⟩ := isGreatest_foldl_max some
  refine ⟨_, ⟨attained, bounds⟩, Nat.le_antisymm ?_ ?_⟩
  · exact (recorded.size_le_iff _).mpr fun size member => Nat.lt_succ_of_le (bounds member)
  · exact (recorded.size_le_iff histogram.size).mp le_rfl _ attained

/-- Adding up weights of the sizes, each as often as it is counted, adds them up over all the sizes
that were recorded. -/
theorem IsOf.sum_eq (weight : Nat → Nat) :
    ∑ size ∈ Finset.range histogram.size, weight size * histogram.count size =
      (sizes.map weight).sum := by
  have inside : sizes.toFinset ⊆ Finset.range histogram.size := fun size member =>
    Finset.mem_range.mpr
      ((recorded.size_le_iff histogram.size).mp le_rfl size (List.mem_toFinset.mp member))
  calc ∑ size ∈ Finset.range histogram.size, weight size * histogram.count size
      = ∑ size ∈ Finset.range histogram.size, sizes.count size • weight size :=
        Finset.sum_congr rfl fun size _ => by rw [recorded.count, Nat.mul_comm]; rfl
    _ = ∑ size ∈ sizes.toFinset, sizes.count size • weight size := by
        refine (Finset.sum_subset inside fun size _ absent => ?_).symm
        rw [List.count_eq_zero_of_not_mem (List.mem_toFinset.not.mp absent), zero_nsmul]
    _ = (sizes.map weight).sum := (Finset.sum_list_map_count sizes weight).symm

end Histogram

/-! ### The counts of some devices -/

namespace Device

/-- The numbers of references of the gates of a kind, among some devices. -/
def arities (kind : GateKind) (devices : List Device) : List Nat :=
  devices.filterMap fun device =>
    if device.kind? = some kind then some device.references.length else none

theorem arities_concat (kind : GateKind) (devices : List Device) (device : Device) :
    arities kind (devices ++ [device]) = arities kind devices ++
      if device.kind? = some kind then [device.references.length] else [] := by
  unfold arities
  rw [List.filterMap_append]
  by_cases same : device.kind? = some kind <;> simp [same]

end Device

namespace Statistics

/-- The number of gates of a kind. -/
def total (statistics : Statistics) : GateKind → Nat
  | .and => statistics.ands
  | .or => statistics.ors
  | .not => statistics.nots

/-- The histogram of a kind; Not gates have none. -/
def arity? (statistics : Statistics) : GateKind → Option Histogram
  | .and => some statistics.andArity
  | .or => some statistics.orArity
  | .not => none

theorem total_record (statistics : Statistics) (device : Device) (kind : GateKind) :
    (statistics.record device).total kind =
      statistics.total kind + if device.kind? = some kind then 1 else 0 := by
  match device with
  | .inputPin _ | .outputPin _ => rfl
  | .gate .and _ | .gate .or _ | .gate .not _ => cases kind <;> rfl

theorem arity?_record (statistics : Statistics) (device : Device) (kind : GateKind) :
    (statistics.record device).arity? kind = (statistics.arity? kind).map fun histogram =>
      if device.kind? = some kind then histogram.record device.references.length
      else histogram := by
  match device with
  | .inputPin _ | .outputPin _ => cases kind <;> rfl
  | .gate .and _ | .gate .or _ | .gate .not _ => cases kind <;> rfl

/-- The statistics have counted the gates among some devices. -/
structure IsOf (statistics : Statistics) (devices : List Device) : Prop where
  total : ∀ kind, statistics.total kind = (Device.arities kind devices).length
  arity : ∀ kind histogram, statistics.arity? kind = some histogram →
    histogram.IsOf (Device.arities kind devices)

theorem isOf_nil (inputs outputs : Nat) : IsOf { inputs, outputs } [] where
  total kind := by cases kind <;> rfl
  arity kind histogram found := by
    cases kind <;> cases found <;> exact Histogram.isOf_nil

theorem IsOf.record {statistics : Statistics} {devices : List Device}
    (recorded : statistics.IsOf devices) (device : Device) :
    (statistics.record device).IsOf (devices ++ [device]) where
  total kind := by
    rw [total_record, Device.arities_concat, List.length_append, recorded.total]
    split <;> rfl
  arity kind histogram found := by
    rw [arity?_record] at found
    obtain ⟨before, known, rfl⟩ := Option.map_eq_some_iff.mp found
    rw [Device.arities_concat]
    split
    · exact (recorded.arity kind before known).record _
    · rw [List.append_nil]
      exact recorded.arity kind before known

theorem IsOf.foldl_record {statistics : Statistics} {done : List Device}
    (recorded : statistics.IsOf done) (devices : List Device) :
    (devices.foldl Statistics.record statistics).IsOf (done ++ devices) := by
  induction devices generalizing statistics done with
  | nil => rwa [List.append_nil]
  | cons device devices inductionHypothesis =>
    have further := inductionHypothesis (recorded.record device)
    rwa [List.append_assoc] at further

end Statistics

/-! ### The gates of a circuit -/

namespace Circuit

/-- The gates of a kind, in order. -/
def gatesOf (circuit : Circuit) (kind : GateKind) : List DeviceId :=
  circuit.gates.toList.filter fun gate =>
    circuit.devices[gate.index]?.bind Device.kind? = some kind

/-- The number of references of a gate. -/
def arity (circuit : Circuit) (gate : DeviceId) : Nat :=
  (circuit.references gate).length

theorem arities_of_mapM {circuit : Circuit} {gates : List DeviceId} {devices : List Device}
    (looked : gates.mapM circuit.device = .ok devices) (kind : GateKind) :
    Device.arities kind devices = (gates.filter fun gate =>
      circuit.devices[gate.index]?.bind Device.kind? = some kind).map circuit.arity := by
  induction gates generalizing devices with
  | nil =>
    obtain rfl := Except.ok.inj looked
    rfl
  | cons gate gates inductionHypothesis =>
    rw [List.mapM_cons, bind_eq_ok_iff] at looked
    obtain ⟨device, found, others⟩ := looked
    obtain ⟨rest, lookedRest, same⟩ := bind_eq_ok_iff.mp others
    obtain rfl := Except.ok.inj same
    have known := device_eq_ok_iff.mp found
    have here : circuit.devices[gate.index]?.bind Device.kind? = device.kind? := by
      rw [known]
      rfl
    have length : circuit.arity gate = device.references.length := by
      rw [arity, references_of_getElem? known]
    have tail := inductionHypothesis lookedRest
    unfold Device.arities at tail ⊢
    by_cases same : device.kind? = some kind
    · simp [here, same, length, tail]
    · simp [here, same, tail]

theorem length_gatesOf {circuit : Circuit} (wellFormed : circuit.WellFormed)
    (small : circuit.devices.size ≤ UInt32.size) :
    (circuit.gatesOf .and).length + (circuit.gatesOf .or).length + (circuit.gatesOf .not).length =
      circuit.gateCount := by
  have all : ∀ gate ∈ circuit.gates.toList, ∃ kind,
      circuit.devices[gate.index]?.bind Device.kind? = some kind := by
    intro gate member
    obtain ⟨kind, references, found⟩ :=
      (wellFormed.mem_gates small).mp (Array.mem_toList_iff.mp member)
    exact ⟨kind, by rw [found]; rfl⟩
  unfold gatesOf gateCount
  rw [← Array.length_toList]
  generalize circuit.gates.toList = gates at all
  induction gates with
  | nil => rfl
  | cons gate gates inductionHypothesis =>
    obtain ⟨⟨kind, known⟩, others⟩ := List.forall_mem_cons.mp all
    have rest := inductionHypothesis others
    cases kind <;> simp [known] <;> omega

/-- A histogram and a total describe the gates of a kind. -/
structure IsTallied (circuit : Circuit) (kind : GateKind) (total : Nat) (histogram : Histogram) :
    Prop where
  /-- The total is the number of gates. -/
  total_eq : total = (circuit.gatesOf kind).length
  /-- Each number of references is counted as often as a gate has it. -/
  count : ∀ size, histogram.count size =
    ((circuit.gatesOf kind).filter fun gate => circuit.arity gate = size).length
  /-- The counts add up to the total. -/
  sum : ∑ size ∈ Finset.range histogram.size, histogram.count size = total
  /-- Without gates the histogram is empty. -/
  size_of_nil : circuit.gatesOf kind = [] → histogram.size = 0
  /-- With gates the histogram is one longer than the largest number of references. -/
  size : circuit.gatesOf kind ≠ [] → ∃ largest,
    IsGreatest {size | ∃ gate ∈ circuit.gatesOf kind, circuit.arity gate = size} largest ∧
      histogram.size = largest + 1
  /-- The counts weighted by the numbers of references add up to the number of all references. -/
  weighted : ∑ size ∈ Finset.range histogram.size, size * histogram.count size =
    ((circuit.gatesOf kind).map circuit.arity).sum

theorem isTallied_of_isOf {circuit : Circuit} {kind : GateKind} {total : Nat}
    {histogram : Histogram} (counted : total = ((circuit.gatesOf kind).map circuit.arity).length)
    (recorded : histogram.IsOf ((circuit.gatesOf kind).map circuit.arity)) :
    circuit.IsTallied kind total histogram where
  total_eq := counted.trans (List.length_map _)
  count size := by
    rw [recorded.count, List.count_eq_countP, List.countP_map, List.countP_eq_length_filter]
    rfl
  sum := by
    have sum := recorded.sum_eq fun _ => 1
    rw [List.map_const', List.sum_replicate_nat, Nat.mul_one, ← counted] at sum
    simpa only [Nat.one_mul] using sum
  size_of_nil none := recorded.size_of_nil (List.map_eq_nil_iff.mpr none)
  size some := by
    have greatest := recorded.exists_size (List.map_eq_nil_iff.not.mpr some)
    simpa only [List.mem_map] using greatest
  weighted := by
    have sum := recorded.sum_eq id
    rwa [List.map_id] at sum

/-- What the statistics count are the devices of the gates. -/
theorem exists_isOf {circuit : Circuit} {statistics : Statistics}
    (computed : circuit.statistics = .ok statistics) : ∃ devices,
      circuit.gates.toList.mapM circuit.device = .ok devices ∧ statistics.IsOf devices := by
  obtain ⟨devices, looked, measured⟩ := bind_eq_ok_iff.mp computed
  obtain ⟨depth, _, same⟩ := bind_eq_ok_iff.mp measured
  obtain rfl := Except.ok.inj same
  have recorded := (Statistics.isOf_nil circuit.inputCount circuit.outputCount).foldl_record devices
  exact ⟨devices, looked, recorded.total, recorded.arity⟩

/-! ### Main statement -/

/-- If no operation was misused, the statistics of a sorted circuit are known. They count each gate
once, by its kind, and each And gate and Or gate once by its number of references. -/
theorem statistics_counts_spec {circuit : Circuit} (constructed : circuit.IsConstructed)
    (small : circuit.devices.size < UInt32.size) (sorted : circuit.isSorted = true) :
    ∃ statistics, circuit.statistics = .ok statistics ∧
      statistics.ands + statistics.ors + statistics.nots = circuit.gateCount ∧
      statistics.nots = (circuit.gatesOf .not).length ∧
      circuit.IsTallied .and statistics.ands statistics.andArity ∧
      circuit.IsTallied .or statistics.ors statistics.orArity := by
  have wellFormed := constructed.reachable.wellFormed small
  obtain ⟨depths, fits⟩ := exists_fits_depth constructed small sorted
  obtain ⟨statistics, computed, _⟩ := exists_statistics_depth constructed small sorted fits
  obtain ⟨devices, looked, recorded⟩ := exists_isOf computed
  have ands := recorded.total .and
  have ors := recorded.total .or
  have nots := recorded.total .not
  have andArity := recorded.arity .and _ rfl
  have orArity := recorded.arity .or _ rfl
  rw [arities_of_mapM looked] at ands ors nots andArity orArity
  have andTally := isTallied_of_isOf ands andArity
  have orTally := isTallied_of_isOf ors orArity
  have notCount := nots.trans (List.length_map _)
  refine ⟨statistics, computed, ?_, notCount, andTally, orTally⟩
  rw [← length_gatesOf wellFormed small.le]
  exact congrArg₂ (· + ·) (congrArg₂ (· + ·) andTally.total_eq orTally.total_eq) notCount

/-- A gate with three references, all to the same pin, is met before one without any. The Not gate
is in no histogram. -/
theorem statistics_of_repeated_references :
    let circuit := ofOperations [.addInput, .addGate .and, .addGate .and, .addGate .not,
      .connect (.ofIndex 1) (.ofIndex 0), .connect (.ofIndex 1) (.ofIndex 0),
      .connect (.ofIndex 1) (.ofIndex 0), .connect (.ofIndex 3) (.ofIndex 2), .sort]
    circuit.IsConstructed ∧ circuit.devices.size < UInt32.size ∧ circuit.isSorted = true ∧
      ∃ statistics, circuit.statistics = .ok statistics ∧
        statistics.ands + statistics.ors + statistics.nots = 3 ∧
        statistics.andArity.count 0 = 1 ∧ statistics.andArity.count 3 = 1 ∧
        ∑ size ∈ Finset.range statistics.andArity.size, size * statistics.andArity.count size = 3 ∧
        statistics.orArity.size = 0 := by
  intro circuit
  have constructed : circuit.IsConstructed := isConstructed_ofOperations (by decide)
  have small : circuit.devices.size < UInt32.size := by decide
  have sorted : circuit.isSorted = true := by decide
  obtain ⟨statistics, computed, total, _, ands, ors⟩ :=
    statistics_counts_spec constructed small sorted
  exact ⟨constructed, small, sorted, statistics, computed, total,
    (ands.count 0).trans (by decide), (ands.count 3).trans (by decide),
    ands.weighted.trans (by decide), ors.size_of_nil (by decide)⟩

end Circuit

end Combinational
