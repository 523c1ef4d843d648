/-
This file reads a circuit back from its netlist.

Each line of a netlist but the first one has the identifier of a device, an equals sign, a word for
the kind of the device, and its value or its references in parentheses. No part holds the sign that
follows it, so cutting the lines at these signs gives the devices back. The three lists of a circuit
are not set apart in its netlist, but each has devices of another kind.

A netlist tells nothing about devices outside the lists and about the remembered order. The former
have no effect on any answer, and the latter is the order that sorting finds, if there is one.
-/

import Combinational.Proofs.InPlace
import Combinational.Proofs.Resorting
import Combinational.Proofs.Sweeps

namespace Combinational

/-! ### Identifiers and lists of them -/

namespace DeviceId

theorem toList_text (id : DeviceId) : id.text.toList = 'd' :: Nat.toDigits 10 id.index := by
  rw [text, String.toList_append, Nat.toList_repr]
  rfl

theorem not_mem_text (id : DeviceId) {character : Char} (notDigit : character.isDigit = false)
    (notLetter : character ≠ 'd') : character ∉ id.text.toList := by
  rw [toList_text, List.mem_cons, not_or]
  exact ⟨notLetter, Text.not_mem_toDigits notDigit⟩

theorem text_injective {first second : DeviceId} (same : first.text = second.text) :
    first = second := by
  have characters := congrArg String.toList same
  rw [toList_text, toList_text] at characters
  have numbers := congrArg Text.numeral? (List.cons.inj characters).2
  rw [Text.numeral?_toDigits, Text.numeral?_toDigits] at numbers
  exact index_injective (Option.some.inj numbers)

/-- The texts of some identifiers, with a comma and a space between each two of them. -/
def listCharacters (ids : List DeviceId) : List Char :=
  [',', ' '].intercalate (ids.map (·.text.toList))

theorem not_mem_listCharacters (ids : List DeviceId) {character : Char}
    (notDigit : character.isDigit = false) (notLetter : character ≠ 'd')
    (notComma : character ≠ ',') (notSpace : character ≠ ' ') :
    character ∉ listCharacters ids := by
  intro member
  rcases Lcf.mem_of_mem_intercalate member with inSeparator | ⟨piece, listed, inside⟩
  · simp [notComma, notSpace] at inSeparator
  · obtain ⟨id, _, rfl⟩ := List.mem_map.mp listed
    exact id.not_mem_text notDigit notLetter inside

/-- The space after a comma may as well be taken as part of the next identifier. -/
theorem listCharacters_cons (id : DeviceId) (others : List DeviceId) :
    listCharacters (id :: others) =
      [','].intercalate (id.text.toList :: others.map fun other => ' ' :: other.text.toList) := by
  induction others generalizing id with
  | nil => rfl
  | cons other others inductionHypothesis =>
    have rest := inductionHypothesis other
    rw [Lcf.intercalate_cons_eq_append] at rest ⊢
    unfold listCharacters at rest ⊢
    rw [List.map_cons] at rest
    rw [List.map_cons, List.map_cons, List.intercalate_cons_cons, rest, List.append_assoc]
    rfl

theorem splitOn_listCharacters_cons (id : DeviceId) (others : List DeviceId) :
    (listCharacters (id :: others)).splitOn ',' =
      id.text.toList :: others.map fun other => ' ' :: other.text.toList := by
  rw [listCharacters_cons]
  refine List.splitOn_intercalate ',' (fun piece listed => ?_) (List.cons_ne_nil _ _)
  rcases List.mem_cons.mp listed with rfl | listed
  · exact id.not_mem_text (by decide) (by decide)
  · obtain ⟨other, _, rfl⟩ := List.mem_map.mp listed
    rw [List.mem_cons, not_or]
    exact ⟨by decide, other.not_mem_text (by decide) (by decide)⟩

theorem listCharacters_cons_ne_nil (id : DeviceId) (others : List DeviceId) :
    listCharacters (id :: others) ≠ [] := by
  rw [listCharacters_cons, Lcf.intercalate_cons_eq_append, toList_text]
  exact List.cons_ne_nil _ _

theorem listCharacters_injective : Function.Injective listCharacters := by
  intro first second same
  cases first with
  | nil =>
    cases second with
    | nil => rfl
    | cons id others => exact absurd same.symm (listCharacters_cons_ne_nil id others)
  | cons id others =>
    cases second with
    | nil => exact absurd same (listCharacters_cons_ne_nil id others)
    | cons otherId otherOthers =>
      have pieces := congrArg (List.splitOn ',') same
      rw [splitOn_listCharacters_cons, splitOn_listCharacters_cons] at pieces
      obtain ⟨heads, tails⟩ := List.cons.inj pieces
      have spaced : Function.Injective fun other : DeviceId => ' ' :: other.text.toList :=
        fun _ _ same => text_injective (String.toList_inj.mp (List.cons.inj same).2)
      rw [text_injective (String.toList_inj.mp heads), List.map_injective_iff.mpr spaced tails]

end DeviceId

/-! ### Devices -/

namespace Device

/-- The word before the parentheses. -/
def word : Device → List Char
  | inputPin _ => "Input".toList
  | outputPin _ => "Output".toList
  | gate kind _ => kind.name.toList

/-- What stands in the parentheses: the value of an input pin, or the references. -/
def content : Device → List Char
  | inputPin value => [if value then '1' else '0']
  | outputPin references | gate _ references => DeviceId.listCharacters references

theorem toList_listing (name : String) (references : List DeviceId) :
    (listing name references).toList =
      name.toList ++ '(' :: (DeviceId.listCharacters references ++ [')']) := by
  rw [listing, String.toList_append, String.toList_append, String.toList_append,
    String.toList_intercalate, List.map_map, List.append_assoc, List.append_assoc]
  rfl

theorem toList_text (device : Device) :
    device.text.toList = device.word ++ '(' :: (device.content ++ [')']) := by
  cases device with
  | inputPin value => cases value <;> rfl
  | outputPin references => exact toList_listing _ references
  | gate kind references => exact toList_listing _ references

theorem not_mem_content (device : Device) {character : Char}
    (notDigit : character.isDigit = false) (notLetter : character ≠ 'd')
    (notComma : character ≠ ',') (notSpace : character ≠ ' ') :
    character ∉ device.content := by
  cases device with
  | inputPin value =>
    have digit : (if value then '1' else '0').isDigit = true := by cases value <;> rfl
    intro member
    rw [List.mem_singleton.mp member, digit] at notDigit
    exact Bool.noConfusion notDigit
  | outputPin references | gate kind references =>
    exact DeviceId.not_mem_listCharacters references notDigit notLetter notComma notSpace

theorem word_mem (device : Device) :
    device.word ∈ ["Input", "Output", "And", "Or", "Not"].map String.toList := by
  rcases device with _ | _ | ⟨_ | _ | _, _⟩ <;> simp [word, GateKind.name]

theorem parenthesis_not_mem_word (device : Device) : '(' ∉ device.word :=
  (by decide : ∀ word ∈ ["Input", "Output", "And", "Or", "Not"].map String.toList, '(' ∉ word)
    device.word device.word_mem

/-- Signs that no device has in its text. -/
theorem not_mem_text (device : Device) {character : Char}
    (sign : character = '=' ∨ character = '\n') : character ∉ device.text.toList := by
  have words : ∀ word ∈ ["Input", "Output", "And", "Or", "Not"].map String.toList,
      '=' ∉ word ∧ '\n' ∉ word := by
    decide
  obtain ⟨noEquals, noNewline⟩ := words device.word device.word_mem
  rw [toList_text, List.mem_append, List.mem_cons, List.mem_append, List.mem_singleton, not_or,
    not_or, not_or]
  rcases sign with rfl | rfl
  · exact ⟨noEquals, by decide,
      device.not_mem_content (by decide) (by decide) (by decide) (by decide), by decide⟩
  · exact ⟨noNewline, by decide,
      device.not_mem_content (by decide) (by decide) (by decide) (by decide), by decide⟩

/-- A device is determined by the word for its kind and by what stands in the parentheses. -/
theorem eq_of_word_of_content {first second : Device} (word : first.word = second.word)
    (content : first.content = second.content) : first = second := by
  cases first with
  | inputPin value =>
    cases second with
    | inputPin other => cases value <;> cases other <;> first | rfl | cases content
    | outputPin references => simp [Device.word] at word
    | gate kind references => cases kind <;> simp [Device.word, GateKind.name] at word
  | outputPin references =>
    cases second with
    | inputPin other => simp [Device.word] at word
    | outputPin others => rw [DeviceId.listCharacters_injective content]
    | gate kind others => cases kind <;> simp [Device.word, GateKind.name] at word
  | gate kind references =>
    cases second with
    | inputPin other => cases kind <;> simp [Device.word, GateKind.name] at word
    | outputPin others => cases kind <;> simp [Device.word, GateKind.name] at word
    | gate otherKind others =>
      have names : kind.name = otherKind.name := String.toList_inj.mp word
      have kinds : kind = otherKind := by
        cases kind <;> cases otherKind <;> first | rfl | exact absurd names (by decide)
      rw [kinds, DeviceId.listCharacters_injective content]

theorem text_injective : Function.Injective Device.text := by
  intro first second same
  have characters := congrArg String.toList same
  rw [toList_text, toList_text] at characters
  have after : '(' ∉ first.content ++ [')'] := by
    rw [List.mem_append, not_or]
    exact ⟨first.not_mem_content (by decide) (by decide) (by decide) (by decide), by decide⟩
  obtain ⟨word, _, content⟩ := (List.append_cons_inj_of_notMem
    first.parenthesis_not_mem_word after).mp characters
  exact eq_of_word_of_content word (List.append_cancel_right content)

end Device

namespace Circuit

/-! ### The lines of a netlist -/

/-- The devices that some identifiers name. -/
def entries (circuit : Circuit) (ids : List DeviceId) : List (DeviceId × Device) :=
  ids.filterMap fun id => circuit.devices[id.index]?.map (id, ·)

/-- The line of a device, without the line feed. -/
def entryCharacters (entry : DeviceId × Device) : List Char :=
  '\t' :: entry.1.text.toList ++ ' ' :: '=' :: ' ' :: entry.2.text.toList

theorem entryCharacters_injective : Function.Injective entryCharacters := by
  intro first second same
  have before : '=' ∉ '\t' :: first.1.text.toList ++ [' '] := by
    rw [List.mem_append, List.mem_cons, not_or, not_or]
    exact ⟨⟨by decide, first.1.not_mem_text (by decide) (by decide)⟩, by decide⟩
  have after : '=' ∉ ' ' :: first.2.text.toList := by
    rw [List.mem_cons, not_or]
    exact ⟨by decide, first.2.not_mem_text (.inl rfl)⟩
  unfold entryCharacters at same
  rw [List.append_cons, List.append_cons ('\t' :: second.1.text.toList)] at same
  -- The space before the sign stays with the identifier, and the one after it with the device.
  obtain ⟨ids, _, devices⟩ := (List.append_cons_inj_of_notMem before after).mp same
  have texts := (List.cons.inj (List.append_cancel_right ids)).2
  exact Prod.ext (DeviceId.text_injective (String.toList_inj.mp texts))
    (Device.text_injective (String.toList_inj.mp (List.cons.inj devices).2))

theorem newline_not_mem_entryCharacters (entry : DeviceId × Device) :
    '\n' ∉ entryCharacters entry := by
  unfold entryCharacters
  simp only [List.mem_append, List.mem_cons, not_or]
  exact ⟨⟨by decide, entry.1.not_mem_text (by decide) (by decide)⟩, by decide, by decide,
    by decide, entry.2.not_mem_text (.inr rfl)⟩

theorem newline_not_mem_summary (circuit : Circuit) : '\n' ∉ circuit.summary.toList := by
  simp only [summary, String.toList_append, Nat.toList_repr, List.mem_append, not_or]
  have numeral : ∀ number : Nat, '\n' ∉ Nat.toDigits 10 number :=
    fun _ => Text.not_mem_toDigits (by decide)
  exact ⟨⟨⟨⟨⟨⟨by decide, numeral _⟩, by decide⟩, numeral _⟩, by decide⟩, numeral _⟩, by decide⟩

/-- A line feed before the lines, each of which has one at its end, may as well stand before each of
them and after the last. -/
theorem toList_netlistLines (circuit : Circuit) (ids : List DeviceId) :
    '\n' :: (String.join (ids.map circuit.netlistLine)).toList =
      ((circuit.entries ids).map entryCharacters).flatMap ('\n' :: ·) ++ ['\n'] := by
  induction ids with
  | nil => rfl
  | cons id ids inductionHypothesis =>
    rw [List.map_cons, String.join_cons, String.toList_append, netlistLine, entries,
      List.filterMap_cons, ← entries]
    cases found : circuit.devices[id.index]? with
    | none => exact inductionHypothesis
    | some device =>
      have line : ("\t" ++ id.text ++ " = " ++ device.text ++ "\n").toList =
          entryCharacters (id, device) ++ ['\n'] := by
        simp only [entryCharacters, String.toList_append, List.append_assoc, List.cons_append]
        rfl
      simp only [Option.map_some, List.map_cons, List.flatMap_cons, List.append_assoc]
      rw [← inductionHypothesis, line, List.append_assoc]
      rfl

/-- The listed devices, in the order of the netlist. -/
def listedEntries (circuit : Circuit) : List (DeviceId × Device) :=
  circuit.entries (circuit.inputs.toList ++ circuit.gates.toList ++ circuit.outputs.toList)

/-- A netlist is its summary and the lines of the listed devices. -/
theorem lines_netlist (circuit : Circuit) : Lcf.lines circuit.netlist.toList =
    (circuit.summary.toList ++ [':']) :: circuit.listedEntries.map entryCharacters := by
  have ids : (circuit.inputs ++ circuit.gates ++ circuit.outputs).toList =
      circuit.inputs.toList ++ circuit.gates.toList ++ circuit.outputs.toList := by
    rw [Array.toList_append, Array.toList_append]
  have characters : circuit.netlist.toList =
      ['\n'].intercalate ((circuit.summary.toList ++ [':']) ::
        circuit.listedEntries.map entryCharacters) ++ ['\n'] := by
    have colon : ":\n".toList = [':', '\n'] := by decide
    rw [Lcf.intercalate_cons_eq_append, List.append_assoc, listedEntries, ← toList_netlistLines,
      netlist, ids, String.toList_append, String.toList_append, colon]
    simp only [List.append_assoc, List.cons_append, List.nil_append]
  rw [characters]
  refine Lcf.lines_of_ended (List.cons_ne_nil _ _) fun line listed => ?_
  rcases List.mem_cons.mp listed with rfl | listed
  · rw [List.mem_append, not_or]
    exact ⟨circuit.newline_not_mem_summary, by decide⟩
  · obtain ⟨entry, _, rfl⟩ := List.mem_map.mp listed
    exact newline_not_mem_entryCharacters entry

theorem listedEntries_eq_of_netlist_eq {circuit other : Circuit}
    (same : other.netlist = circuit.netlist) : other.listedEntries = circuit.listedEntries := by
  have lines := congrArg (fun text => Lcf.lines text.toList) same
  simp only [lines_netlist] at lines
  exact List.map_injective_iff.mpr entryCharacters_injective (List.cons.inj lines).2

/-! ### Lists from lines -/

theorem mem_entries_iff {circuit : Circuit} {ids : List DeviceId} {id : DeviceId}
    {device : Device} : (id, device) ∈ circuit.entries ids ↔
      id ∈ ids ∧ circuit.devices[id.index]? = some device := by
  unfold entries
  rw [List.mem_filterMap]
  constructor
  · rintro ⟨listed, member, pairs⟩
    obtain ⟨found, looked, pair⟩ := Option.map_eq_some_iff.mp pairs
    obtain ⟨rfl, rfl⟩ := Prod.mk.inj pair
    exact ⟨member, looked⟩
  · rintro ⟨member, looked⟩
    exact ⟨id, member, by rw [looked]; rfl⟩

/-- Of identifiers whose devices are all accepted or all refused, a filter keeps all or none. -/
theorem map_filter_entries {circuit : Circuit} {ids : List DeviceId} {accepts : Device → Bool}
    {accepted : Bool} (all : ∀ id ∈ ids, ∃ device, circuit.devices[id.index]? = some device ∧
      accepts device = accepted) :
    ((circuit.entries ids).filter (accepts ·.2)).map Prod.fst = if accepted then ids else [] := by
  induction ids with
  | nil => cases accepted <;> rfl
  | cons id ids inductionHypothesis =>
    obtain ⟨device, found, accepts⟩ := all id List.mem_cons_self
    have others := inductionHypothesis fun other member => all other (List.mem_cons_of_mem _ member)
    rw [entries, List.filterMap_cons, ← entries, found]
    simp only [Option.map_some, List.filter_cons, accepts]
    cases accepted with
    | false => exact others
    | true => exact congrArg (id :: ·) others

section WellFormed

variable {circuit : Circuit} (wellFormed : circuit.WellFormed)
  (small : circuit.devices.size ≤ UInt32.size)

include wellFormed small

/-- The three lists have devices of different kinds. -/
theorem map_filter_listedEntries (accepts : Device → Bool) (inputs gates outputs : Bool)
    (ofInput : ∀ value, accepts (.inputPin value) = inputs)
    (ofGate : ∀ kind references, accepts (.gate kind references) = gates)
    (ofOutput : ∀ references, accepts (.outputPin references) = outputs) :
    (circuit.listedEntries.filter (accepts ·.2)).map Prod.fst =
      (if inputs then circuit.inputs.toList else []) ++
        (if gates then circuit.gates.toList else []) ++
        if outputs then circuit.outputs.toList else [] := by
  have inputEntries : ∀ id ∈ circuit.inputs.toList, ∃ device,
      circuit.devices[id.index]? = some device ∧ accepts device = inputs := by
    intro id member
    obtain ⟨value, found⟩ := (wellFormed.mem_inputs small).mp (Array.mem_toList_iff.mp member)
    exact ⟨_, found, ofInput value⟩
  have gateEntries : ∀ id ∈ circuit.gates.toList, ∃ device,
      circuit.devices[id.index]? = some device ∧ accepts device = gates := by
    intro id member
    obtain ⟨kind, references, found⟩ :=
      (wellFormed.mem_gates small).mp (Array.mem_toList_iff.mp member)
    exact ⟨_, found, ofGate kind references⟩
  have outputEntries : ∀ id ∈ circuit.outputs.toList, ∃ device,
      circuit.devices[id.index]? = some device ∧ accepts device = outputs := by
    intro id member
    obtain ⟨first, others, found⟩ :=
      wellFormed.of_mem_outputs small (Array.mem_toList_iff.mp member)
    exact ⟨_, found, ofOutput _⟩
  have split : circuit.listedEntries = circuit.entries circuit.inputs.toList ++
      circuit.entries circuit.gates.toList ++ circuit.entries circuit.outputs.toList := by
    unfold listedEntries entries
    rw [List.filterMap_append, List.filterMap_append]
  rw [split, List.filter_append, List.filter_append, List.map_append, List.map_append,
    map_filter_entries inputEntries, map_filter_entries gateEntries,
    map_filter_entries outputEntries]

theorem lists_eq_map_filter :
    circuit.inputs.toList = (circuit.listedEntries.filter (·.2.isInputPin)).map Prod.fst ∧
    circuit.gates.toList = (circuit.listedEntries.filter (·.2.isGate)).map Prod.fst ∧
    circuit.outputs.toList = (circuit.listedEntries.filter (·.2.isOutputPin)).map Prod.fst := by
  rw [map_filter_listedEntries wellFormed small Device.isInputPin true false false
      (fun _ => rfl) (fun _ _ => rfl) fun _ => rfl,
    map_filter_listedEntries wellFormed small Device.isGate false true false
      (fun _ => rfl) (fun _ _ => rfl) fun _ => rfl,
    map_filter_listedEntries wellFormed small Device.isOutputPin false false true
      (fun _ => rfl) (fun _ _ => rfl) fun _ => rfl]
  simp

theorem exists_mem_listedEntries {id : DeviceId} (listed : circuit.IsListed id) :
    ∃ device, (id, device) ∈ circuit.listedEntries := by
  have inside := index_lt_of_isListed wellFormed small listed
  refine ⟨circuit.devices[id.index], mem_entries_iff.mpr ⟨?_, Array.getElem?_eq_getElem inside⟩⟩
  rw [List.mem_append, List.mem_append, Array.mem_toList_iff, Array.mem_toList_iff,
    Array.mem_toList_iff, or_assoc]
  exact listed

end WellFormed

section Pair

variable {circuit other : Circuit} (reachable : circuit.Reachable)
  (small : circuit.devices.size < UInt32.size) (otherReachable : other.Reachable)
  (otherSmall : other.devices.size < UInt32.size)

include reachable small otherReachable otherSmall

/-- The lists and the listed devices are read off the lines. -/
theorem lists_eq_of_listedEntries_eq (entries : other.listedEntries = circuit.listedEntries) :
    other.inputs = circuit.inputs ∧ other.gates = circuit.gates ∧
    other.outputs = circuit.outputs ∧
    ∀ id, circuit.IsListed id → ∃ device,
      circuit.devices[id.index]? = some device ∧ other.devices[id.index]? = some device := by
  have wellFormed := reachable.wellFormed small
  obtain ⟨inputs, gates, outputs⟩ := lists_eq_map_filter wellFormed small.le
  obtain ⟨otherInputs, otherGates, otherOutputs⟩ :=
    lists_eq_map_filter (otherReachable.wellFormed otherSmall) otherSmall.le
  rw [entries] at otherInputs otherGates otherOutputs
  refine ⟨Array.toList_inj.mp (otherInputs.trans inputs.symm),
    Array.toList_inj.mp (otherGates.trans gates.symm),
    Array.toList_inj.mp (otherOutputs.trans outputs.symm), fun id listed => ?_⟩
  obtain ⟨device, member⟩ := exists_mem_listedEntries wellFormed small.le listed
  have otherMember := member
  rw [← entries] at otherMember
  exact ⟨device, (mem_entries_iff.mp member).2, (mem_entries_iff.mp otherMember).2⟩

/-- Sorted circuits with the same gates remember the same order. -/
theorem order_eq_of_sameGates (same : SameGates circuit other)
    (sorted : circuit.isSorted = true) (otherSorted : other.isSorted = true) :
    other.order = circuit.order := by
  have remembered : ∀ {circuit : Circuit}, circuit.sort = .ok circuit →
      circuit.order = circuit.traversal.order.toArray := by
    intro circuit sorts
    exact congrArg Circuit.order (sort_eq_ok_iff.mp sorts).2
  rw [remembered (reachable.sort_eq_self small sorted),
    remembered (otherReachable.sort_eq_self otherSmall otherSorted),
    same.order_traversal_eq (reachable.wellFormed small) small.le
      (otherReachable.wellFormed otherSmall) otherSmall.le]

/-- Under one assignment, circuits with the same lists, order and listed devices have the same
outputs. -/
theorem ListsAlike.outputValues_assigned_eq (alike : circuit.ListsAlike other)
    (values : List Bool) :
    (other.assigned values).outputValues = (circuit.assigned values).outputValues := by
  have assigned : (circuit.assigned values).ListsAlike (other.assigned values) := by
    refine ⟨alike.inputs_eq, alike.gates_eq, alike.outputs_eq, alike.order_eq, fun id listed => ?_⟩
    unfold Circuit.assigned
    rw [getElem?_withPins, getElem?_withPins, alike.devices_eq id listed, alike.inputs_eq]
  refine assigned.outputValues_eq (wellFormed_withPins reachable small _) ?_
    (wellFormed_withPins otherReachable otherSmall _) ?_
    (hasCurrentOrder_withPins reachable small _)
  · rw [Circuit.assigned, size_withPins]
    exact small.le
  · rw [Circuit.assigned, size_withPins]
    exact otherSmall.le

/-! ### Main statement -/

/-- The netlist of a circuit determines its lists and the devices in them, and therefore the outputs
of the circuit for all the values of its input pins, if it is sorted. -/
theorem eq_of_netlist_eq (same : other.netlist = circuit.netlist) :
    other.inputs = circuit.inputs ∧ other.gates = circuit.gates ∧
    other.outputs = circuit.outputs ∧
    (∀ id, circuit.IsListed id → ∃ device,
      circuit.devices[id.index]? = some device ∧ other.devices[id.index]? = some device) ∧
    (circuit.isSorted = true → other.isSorted = true →
      ∀ values : List Bool, values.length = circuit.inputCount → ∃ assigned otherAssigned,
        circuit.setInputs values = .ok assigned ∧ other.setInputs values = .ok otherAssigned ∧
        otherAssigned.outputValues = assigned.outputValues) := by
  obtain ⟨inputs, gates, outputs, devices⟩ := lists_eq_of_listedEntries_eq reachable small
    otherReachable otherSmall (listedEntries_eq_of_netlist_eq same)
  refine ⟨inputs, gates, outputs, devices, fun sorted otherSorted values length => ?_⟩
  have lookups : ∀ id, circuit.IsListed id →
      other.devices[id.index]? = circuit.devices[id.index]? := by
    intro id listed
    obtain ⟨device, found, otherFound⟩ := devices id listed
    exact otherFound.trans found.symm
  have sameGates : SameGates circuit other := by
    refine ⟨gates, fun gate member => ?_⟩
    unfold Circuit.references
    rw [lookups gate (Or.inr (Or.inl member))]
  have order := order_eq_of_sameGates reachable small otherReachable otherSmall sameGates sorted
    otherSorted
  have alike : circuit.ListsAlike other := ⟨inputs, gates, outputs, order, lookups⟩
  have otherLength : values.length = other.inputCount := by
    rw [length, inputCount, inputCount, inputs]
  exact ⟨circuit.assigned values, other.assigned values,
    setInputs_eq (reachable.wellFormed small) small.le length,
    setInputs_eq (otherReachable.wellFormed otherSmall) otherSmall.le otherLength,
    alike.outputValues_assigned_eq reachable small otherReachable otherSmall values⟩

end Pair

/-- An output pin that could not be connected does not show in the netlist. -/
theorem netlist_eq_with_stray_output :
    let built : List Operation := [.addInput, .addGate .not, .connect (.ofIndex 1) (.ofIndex 0),
      .addOutput (.ofIndex 1), .sort]
    let circuit := ofOperations built
    let other := ofOperations (built ++ [.addOutput (.ofIndex 2)])
    circuit.Reachable ∧ circuit.devices.size < UInt32.size ∧ other.Reachable ∧
      other.devices.size < UInt32.size ∧ other.netlist = circuit.netlist ∧ other ≠ circuit ∧
      other.inputs = circuit.inputs ∧ other.gates = circuit.gates ∧
      other.outputs = circuit.outputs ∧
      ∃ assigned otherAssigned, circuit.setInputs [true] = .ok assigned ∧
        other.setInputs [true] = .ok otherAssigned ∧
        otherAssigned.outputValues = assigned.outputValues := by
  intro built circuit other
  have reachable : circuit.Reachable := reachable_ofOperations _
  have small : circuit.devices.size < UInt32.size := by decide
  have otherReachable : other.Reachable := reachable_ofOperations _
  have otherSmall : other.devices.size < UInt32.size := by decide
  have same : other.netlist = circuit.netlist := by decide +kernel
  obtain ⟨inputs, gates, outputs, _, answers⟩ :=
    eq_of_netlist_eq reachable small otherReachable otherSmall same
  exact ⟨reachable, small, otherReachable, otherSmall, same, by decide, inputs, gates, outputs,
    answers (by decide) (by decide) [true] (by decide)⟩

end Circuit

end Combinational
