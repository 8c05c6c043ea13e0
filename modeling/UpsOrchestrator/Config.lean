import Mathlib.Data.List.Nodup
import Mathlib.Data.List.FinRange

/-!
# Device configuration

`config.py`: the devices of `ups_config.yml`, and `server.py`'s set of contexts built from them.

* `TimingConfig`, `DesktopConfig`, `UPSDeviceConfig`: the dataclasses, with their defaults.
* `loadUpsDevices`: `_load_ups_devices` on the parsed entries, with its two `ValueError`s.
* `Site`: the devices of one server, one per id; `Site.desktopPeers` is `_desktop_peers`.
-/

set_option autoImplicit false

namespace UpsOrchestrator

/-- UPS roles. A primary drives the server's own shutdown, an observer is powered off by `upscmd`. -/
inductive Role
  | primary
  | observer
  deriving DecidableEq, Repr

/-- All waits are in seconds. -/
structure TimingConfig where
  desktopOfflineWait : Int := 300
  desktopOnlinePromptWait : Int := 180
  desktopSuspendWait : Int := 360
  desktopShutdownWait : Int := 60
  wakeOnlineTimeout : Int := 60
  wolRetryInterval : Int := 20
  observerPoweroffMaxWait : Int := 1800
  deriving DecidableEq, Repr

structure WolRelayConfig where
  host : String
  identityFile : Option String := none
  deriving DecidableEq, Repr

structure DesktopConfig where
  agentUrl : String
  macAddress : Option String := none
  deriving DecidableEq, Repr

structure UpscmdConfig where
  shutdown : String := "shutdown.return"
  deriving DecidableEq, Repr

structure UPSDeviceConfig where
  id : String
  nutName : String
  role : Role := .primary
  timing : TimingConfig := {}
  desktop : Option DesktopConfig := none
  wolRelay : Option WolRelayConfig := none
  upscmd : UpscmdConfig := {}
  deriving DecidableEq, Repr

def UPSDeviceConfig.isObserver (d : UPSDeviceConfig) : Bool := d.role = .observer

/-! ## The loader -/

/-- A `timing` block: absent keys take the defaults. -/
structure RawTiming where
  desktopOfflineWait : Option Int := none
  desktopOnlinePromptWait : Option Int := none
  desktopSuspendWait : Option Int := none
  desktopShutdownWait : Option Int := none
  wakeOnlineTimeout : Option Int := none
  wolRetryInterval : Option Int := none
  observerPoweroffMaxWait : Option Int := none

/-- An entry of `ups_devices` with its required keys. The `role` key may be absent, null (`some
none`) or any text; absent and empty blocks are `none`. -/
structure RawDevice where
  id : String
  nutName : String
  role : Option (Option String) := none
  timing : Option RawTiming := none
  desktop : Option DesktopConfig := none
  wolRelay : Option WolRelayConfig := none
  upscmdShutdown : Option String := none

/-- The two `ValueError`s of the loader. -/
inductive LoadError
  | invalidRole (role : Option String) (id : String)
  | ambiguousDesktop (id : String)
  deriving DecidableEq, Repr

def parseTiming : Option RawTiming → TimingConfig
  | none => {}
  | some d =>
    let dflt : TimingConfig := {}
    { desktopOfflineWait := d.desktopOfflineWait.getD dflt.desktopOfflineWait
      desktopOnlinePromptWait := d.desktopOnlinePromptWait.getD dflt.desktopOnlinePromptWait
      desktopSuspendWait := d.desktopSuspendWait.getD dflt.desktopSuspendWait
      desktopShutdownWait := d.desktopShutdownWait.getD dflt.desktopShutdownWait
      wakeOnlineTimeout := d.wakeOnlineTimeout.getD dflt.wakeOnlineTimeout
      wolRetryInterval := d.wolRetryInterval.getD dflt.wolRetryInterval
      observerPoweroffMaxWait := d.observerPoweroffMaxWait.getD dflt.observerPoweroffMaxWait }

def parseRole (role : Option String) : Option Role :=
  if role = some "primary" then some .primary
  else if role = some "observer" then some .observer
  else none

/-- One pass of the first loop of `_load_ups_devices`. -/
def parseDevice (d : RawDevice) : Except LoadError UPSDeviceConfig :=
  let role := d.role.getD (some "primary")
  match parseRole role with
  | none => .error (.invalidRole role d.id)
  | some r => .ok
    { id := d.id, nutName := d.nutName, role := r, timing := parseTiming d.timing
      desktop := d.desktop, wolRelay := d.wolRelay
      upscmd := match d.upscmdShutdown with
        | none => {}
        | some cmd => { shutdown := cmd } }

/-- One pass of the second loop: a primary without a desktop takes the single observer's. -/
def inheritDesktop (observers : List UPSDeviceConfig) (dev : UPSDeviceConfig) :
    Except LoadError UPSDeviceConfig :=
  if dev.isObserver ∨ dev.desktop.isSome then .ok dev
  else match observers with
    | [] => .ok dev
    | [o] => .ok { dev with desktop := o.desktop }
    | _ :: _ :: _ => .error (.ambiguousDesktop dev.id)

def loadUpsDevices (entries : List RawDevice) : Except LoadError (List UPSDeviceConfig) := do
  let devices ← entries.mapM parseDevice
  devices.mapM (inheritDesktop (devices.filter (·.isObserver)))

/-! ## The contexts of a server -/

/-- The devices behind `CONTEXTS`, which is a dictionary by id. -/
structure Site where
  devices : List UPSDeviceConfig
  ids_nodup : (devices.map (·.id)).Nodup

namespace Site

variable (s : Site)

/-- The site is what the loader makes of some configuration file. -/
def Loaded : Prop := ∃ entries, loadUpsDevices entries = .ok s.devices

/-- A context, by its place in `CONTEXTS`. -/
abbrev Ix : Type := Fin s.devices.length

def dev (i : s.Ix) : UPSDeviceConfig := s.devices.get i

/-- `_desktop_peers`: the other contexts of one role that share this device's desktop. -/
def desktopPeers (i : s.Ix) (observers : Bool) : List s.Ix :=
  match (s.dev i).desktop with
  | none => []
  | some desktop => (List.finRange s.devices.length).filter fun j =>
      decide (j ≠ i ∧ (s.dev j).isObserver = observers ∧
        (s.dev j).desktop.map (·.agentUrl) = some desktop.agentUrl)

variable {s} {i j : s.Ix} {observers : Bool}

theorem mem_desktopPeers : j ∈ s.desktopPeers i observers ↔
    j ≠ i ∧ (s.dev j).isObserver = observers ∧ (s.dev i).desktop.isSome ∧
      (s.dev j).desktop.map (·.agentUrl) = (s.dev i).desktop.map (·.agentUrl) := by
  unfold desktopPeers
  cases h : (s.dev i).desktop with
  | none => simp
  | some desktop => simp [List.mem_filter]

theorem ne_of_mem_desktopPeers (h : j ∈ s.desktopPeers i observers) : j ≠ i :=
  (mem_desktopPeers.mp h).1

theorem isObserver_of_mem_desktopPeers (h : j ∈ s.desktopPeers i observers) :
    (s.dev j).isObserver = observers :=
  (mem_desktopPeers.mp h).2.1

/-- **Sharing a desktop is symmetric.** -/
theorem mem_desktopPeers_comm (h : j ∈ s.desktopPeers i observers) :
    i ∈ s.desktopPeers j (s.dev i).isObserver := by
  obtain ⟨hne, -, hi, hurl⟩ := mem_desktopPeers.mp h
  refine mem_desktopPeers.mpr ⟨Ne.symm hne, rfl, ?_, hurl.symm⟩
  rw [← Option.isSome_map (f := (·.agentUrl)), hurl, Option.isSome_map]
  exact hi

variable (s) in
/-- No two observers have the same desktop. -/
def NoTwinObservers : Prop :=
  ∀ i : s.Ix, (s.dev i).isObserver = true → s.desktopPeers i true = []

instance : Decidable s.NoTwinObservers := by unfold NoTwinObservers; infer_instance

end Site

end UpsOrchestrator
