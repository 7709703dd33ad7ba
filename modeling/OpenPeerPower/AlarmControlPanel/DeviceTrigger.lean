import OpenPeerPower.Schema
import OpenPeerPower.Intent

/-!
# `components/alarm_control_panel/device_trigger.py`: the device triggers of alarm panels

A device automation lists the triggers a device offers (`async_get_triggers`) and attaches one of
them when an automation uses it (`async_attach_trigger`). For each alarm panel entity of the
device that has a state, the list holds a `disarmed` and a `triggered` trigger, and an
`armed_home`, `armed_away` or `armed_night` trigger when the entity's `supported_features` has the
bit of that mode. Attaching validates the config with `TRIGGER_SCHEMA` and turns its type into a
state trigger on the entity, from one alarm state to another.

The entity registry is the list of its entries, `opp.states.get` a lookup function, and
`valid_entity_id` and `str.lower` (of `openpeerpower.core`, which `cv.entity_id` calls) are
parameters. The constants come from `openpeerpower.const`, `alarm_control_panel.const` and
`automation.state`, and `TRIGGER_BASE_SCHEMA` from `components/device_automation`, with the values
they have there. `async_attach_trigger` is modelled up to the state trigger it attaches: it
returns the `state_config` it hands to `state.TRIGGER_SCHEMA` and `state.async_attach_trigger`.
-/

namespace OpenPeerPower

namespace AlarmControlPanel

/-! ### Constants -/

def DOMAIN : String := "alarm_control_panel"
def CONF_PLATFORM : String := "platform"
def CONF_DEVICE_ID : String := "device_id"
def CONF_DOMAIN : String := "domain"
def CONF_ENTITY_ID : String := "entity_id"
def CONF_TYPE : String := "type"
def CONF_FROM : String := "from"
def CONF_TO : String := "to"
def STATE_ALARM_ARMED_AWAY : String := "armed_away"
def STATE_ALARM_ARMED_HOME : String := "armed_home"
def STATE_ALARM_ARMED_NIGHT : String := "armed_night"
def STATE_ALARM_DISARMED : String := "disarmed"
def STATE_ALARM_PENDING : String := "pending"
def STATE_ALARM_TRIGGERED : String := "triggered"
def SUPPORT_ALARM_ARM_HOME : Int := 1
def SUPPORT_ALARM_ARM_AWAY : Int := 2
def SUPPORT_ALARM_ARM_NIGHT : Int := 4

/-! ### Listing the triggers -/

/-- An entry of the entity registry: the fields read here (`device_id` is `None` for an entity
without a device). -/
structure RegistryEntry where
  entityId : String
  deviceId : Option String
  deriving Repr, DecidableEq

/-- `RegistryEntry.domain`: the part of the entity id before its first `.` (`split_entity_id`). -/
def RegistryEntry.domain (e : RegistryEntry) : String := String.mk (e.entityId.toList.takeWhile (· ≠ '.'))

/-- `entity_registry.async_entries_for_device(registry, device_id)`, in registry order. -/
def asyncEntriesForDevice (registry : List RegistryEntry) (deviceId : String) : List RegistryEntry :=
  registry.filter (·.deviceId == some deviceId)

/-- `supported_features & mask`: an `int`, or a `bool` (an `int` in Python), and otherwise
`TypeError`. -/
def bitAnd (v : Value) (mask : Int) : Except PyException Int :=
  match v with
  | .int n => .ok (Int.land n mask)
  | .bool b => .ok (Int.land (if b then 1 else 0) mask)
  | _ => .error (.typeError "unsupported operand type(s) for &")

/-- A trigger dict of `async_get_triggers`. -/
def trigger (deviceId entityId type : String) : Value :=
  .dict [(CONF_PLATFORM, .str "device"), (CONF_DEVICE_ID, .str deviceId), (CONF_DOMAIN, .str DOMAIN),
    (CONF_ENTITY_ID, .str entityId), (CONF_TYPE, .str type)]

/-- `if supported_features & feature: triggers.append(...)`, the same for the three arming
modes. -/
def appendIfSupported (deviceId entityId : String) (supportedFeatures : Value) (feature : Int)
    (type : String) (triggers : List Value) : Except PyException (List Value) := do
  let bit ← bitAnd supportedFeatures feature
  return if bit ≠ 0 then triggers ++ [trigger deviceId entityId type] else triggers

/-- The body of the loop of `async_get_triggers`, for one entry of the device. -/
def entryTriggers (states : String → Option State) (deviceId : String) (triggers : List Value)
    (entry : RegistryEntry) : Except PyException (List Value) :=
  if entry.domain ≠ DOMAIN then .ok triggers
  else
    match states entry.entityId with
    | none => .ok triggers
    | some entityState => do
      let supportedFeatures ← getItem (.dict entityState.attributes) ATTR_SUPPORTED_FEATURES
      let triggers := triggers ++
        [trigger deviceId entry.entityId "disarmed", trigger deviceId entry.entityId "triggered"]
      let triggers ← appendIfSupported deviceId entry.entityId supportedFeatures
        SUPPORT_ALARM_ARM_HOME "armed_home" triggers
      let triggers ← appendIfSupported deviceId entry.entityId supportedFeatures
        SUPPORT_ALARM_ARM_AWAY "armed_away" triggers
      appendIfSupported deviceId entry.entityId supportedFeatures
        SUPPORT_ALARM_ARM_NIGHT "armed_night" triggers

/-- `async_get_triggers(opp, device_id)`. -/
def asyncGetTriggers (registry : List RegistryEntry) (states : String → Option State)
    (deviceId : String) : Except PyException (List Value) :=
  (asyncEntriesForDevice registry deviceId).foldlM (entryTriggers states deviceId) []

/-! ### Attaching a trigger -/

/-- A literal value in a schema: the value itself passes, anything else is `not a valid value`. -/
def literal (expected : String) : Validator := fun path v =>
  match v with
  | .str s => if s = expected then .ok v else .error [⟨"not a valid value", path⟩]
  | _ => .error [⟨"not a valid value", path⟩]

/-- The type `str` in a schema. -/
def strType : Validator := fun path v =>
  match v with
  | .str _ => .ok v
  | _ => .error [⟨"expected str", path⟩]

/-- `vol.In(container)` for a container of strings. -/
def volIn (container : List String) : Validator := fun path v =>
  match v with
  | .str s => if s ∈ container then .ok v else .error [⟨"value is not allowed", path⟩]
  | _ => .error [⟨"value is not allowed", path⟩]

/-- `TRIGGER_BASE_SCHEMA` of `components/device_automation`. -/
def TRIGGER_BASE_SCHEMA : Schema :=
  { entries := [(.required CONF_PLATFORM, literal "device"), (.required CONF_DOMAIN, strType),
      (.required CONF_DEVICE_ID, strType)] }

/-- `TRIGGER_TYPES`: the types a trigger of an alarm panel can have. -/
def TRIGGER_TYPES : List String := ["triggered", "disarmed", "armed_home", "armed_away", "armed_night"]

section Attach

-- `valid_entity_id` and `str.lower`.
variable (validEntityId : String → Bool) (lower : String → String)

/-- `cv.entity_id`: `cv.string`, lower-cased, then `valid_entity_id`. -/
def cvEntityId : Validator := fun path v =>
  match cvString path v with
  | .ok (.str s) =>
    if validEntityId (lower s) then .ok (.str (lower s))
    else .error [⟨s!"Entity ID {lower s} is an invalid entity id", path⟩]
  | r => r

/-- `TRIGGER_SCHEMA`: the base schema of device triggers, extended with a required `entity_id`
(`cv.entity_id`) and a required `type` among `TRIGGER_TYPES`. -/
def TRIGGER_SCHEMA : Schema :=
  TRIGGER_BASE_SCHEMA.extend
    [(.required CONF_ENTITY_ID, cvEntityId validEntityId lower), (.required CONF_TYPE, volIn TRIGGER_TYPES)]

/-- The `if`/`elif` chain of `async_attach_trigger` on `config[CONF_TYPE]`: the states the state
trigger goes from and to, `none` when no branch is taken. -/
def fromToState : Value → Option (String × String)
  | .str "triggered" => some (STATE_ALARM_PENDING, STATE_ALARM_TRIGGERED)
  | .str "disarmed" => some (STATE_ALARM_TRIGGERED, STATE_ALARM_DISARMED)
  | .str "armed_home" => some (STATE_ALARM_PENDING, STATE_ALARM_ARMED_HOME)
  | .str "armed_away" => some (STATE_ALARM_PENDING, STATE_ALARM_ARMED_AWAY)
  | .str "armed_night" => some (STATE_ALARM_PENDING, STATE_ALARM_ARMED_NIGHT)
  | _ => none

/-- `async_attach_trigger(opp, config, action, automation_info)`, up to the `state_config` it
attaches. A config the schema rejects raises `MultipleInvalid`; a type no branch takes leaves
`from_state` unbound when `state_config` reads it. -/
def asyncAttachTrigger (config : Value) : Except PyException (List (String × Value)) := do
  let config ← ((TRIGGER_SCHEMA validEntityId lower).call config).mapError .invalid
  let type ← getItem config CONF_TYPE
  let entityId ← getItem config CONF_ENTITY_ID
  match fromToState type with
  | none => .error (.exception "UnboundLocalError")
  | some (fromState, toState) =>
    return [(CONF_PLATFORM, .str "state"), (CONF_ENTITY_ID, entityId), (CONF_FROM, .str fromState),
      (CONF_TO, .str toState)]

end Attach

end AlarmControlPanel

end OpenPeerPower
