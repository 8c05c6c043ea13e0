import UpsOrchestrator.Fallbacks
import UpsOrchestrator.Lib.Scanner

/-!
# Wake-on-LAN

`wol.py`: the magic packet for a MAC address, and the two ways to send it.

* `fromHex`: `bytes.fromhex`; `parseMac`, `magic`: the packet.
* `WolOp`: what the functions ask of the system and send.
* `sendLocal`, `sendViaSsh`, `send`: the functions; `remoteCmd`: the command for the relay.
* **`sendsOnly_sendLocal`**, **`runs_sendViaSsh`**, `runs_send_of_invalid`: what a run of `send` sends.
-/

set_option autoImplicit false
set_option linter.constructorNameAsVariable false

namespace UpsOrchestrator

open Lts

/-! ## Hexadecimal text -/

/-- Whitespace of `bytes.fromhex`. -/
def isAsciiSpace (c : Char) : Bool := c = ' ' || (9 ≤ c.toNat && c.toNat ≤ 13)

/-- The value of a hexadecimal digit. -/
def hexValue (c : Char) : Option ℕ :=
  if '0' ≤ c ∧ c ≤ '9' then some (c.toNat - '0'.toNat)
  else if 'a' ≤ c ∧ c ≤ 'f' then some (c.toNat - 'a'.toNat + 10)
  else if 'A' ≤ c ∧ c ≤ 'F' then some (c.toNat - 'A'.toNat + 10)
  else none

def isHexDigit (c : Char) : Bool := (hexValue c).isSome

/-- Pairs of digits, with whitespace before, between and after them; the state is the first digit of
a pair. -/
def hexScanner : Scanner Char (Option ℕ) UInt8 where
  start := none
  step
    | none, c => if isAsciiSpace c then some (none, []) else (hexValue c).map fun v => (some v, [])
    | some v, c => (hexValue c).map fun w => (none, [UInt8.ofNat (16 * v + w)])
  finish
    | none => some []
    | some _ => none

/-- `bytes.fromhex`; none if it raises. -/
def fromHex (text : List Char) : Option (List UInt8) := hexScanner.scan text

/-- `text.replace(c, "")` -/
def remove (c : Char) (text : String) : String := String.ofList (text.toList.filter (· ≠ c))

/-- `mac_address.replace(":", "").replace("-", "")` -/
def macHex (macAddress : String) : String := remove '-' (remove ':' macAddress)

/-- `_parse_mac`; none if it raises. -/
def parseMac (macAddress : String) : Option (List UInt8) := do
  let macBytes ← fromHex (macHex macAddress).toList
  if macBytes.length ≠ 6 then none else some macBytes

/-- `data * n` -/
def repeatBytes (n : ℕ) (data : List UInt8) : List UInt8 := (List.replicate n data).flatten

/-- The magic packet. -/
def magic (macBytes : List UInt8) : List UInt8 := repeatBytes 6 [0xff] ++ repeatBytes 16 macBytes

/-! ## Operations -/

inductive WolOp
  /-- `/sys/class/net/{iface}/address` is read -/
  | readAddress (iface : String)
  /-- `ip -4 addr show` -/
  | ipAddrShow (iface : String)
  /-- a frame is sent through an `AF_PACKET` socket -/
  | sendFrame (iface : String) (dst src protocol payload : List UInt8)
  /-- a broadcast datagram is sent -/
  | sendUdp (payload : List UInt8) (host : String) (port : ℕ)
  | ssh (argv : List String)

/-- The answers; `none` and `false` stand for an exception. -/
abbrev WolOp.Ans : WolOp → Type
  | readAddress _ => Option String
  | ipAddrShow _ => Option String
  | sendFrame _ _ _ _ _ => Bool
  | sendUdp _ _ _ => Bool
  | ssh _ => Option ℤ

/-- What the operation sends. -/
def WolOp.payload : WolOp → Option (List UInt8)
  | sendFrame _ _ _ _ payload => some payload
  | sendUdp payload _ _ => some payload
  | _ => none

/-- What `send` raises. -/
inductive WolError
  | invalidMac
  | allMethodsFailed
  | relayFailed (code : ℤ)
  | relayRaised
  deriving DecidableEq

abbrev WolProg (α : Type) : Type := Prog WolOp WolOp.Ans α

/-- One operation. -/
abbrev WolOp.perform (o : WolOp) : WolProg o.Ans := Prog.perform o

/-! ## The functions -/

def WOL_UDP_PORT : ℕ := 9

/-- `_mac_for_iface` -/
def macForIface (iface : String) : WolProg (List UInt8) := do
  match ← (WolOp.readAddress iface).perform with
  | none => pure (repeatBytes 6 [0])
  | some text => pure ((fromHex (remove ':' (strip text)).toList).getD (repeatBytes 6 [0]))

/-- The word after `word`. -/
def wordAfter (word : String) (parts : List String) : Option String :=
  (parts.dropWhile (· ≠ word)).tail.head?

/-- `_broadcast_for_iface` -/
def broadcastForIface (iface : String) : WolProg String := do
  match ← (WolOp.ipAddrShow iface).perform with
  | none => pure "255.255.255.255"
  | some stdout =>
    pure ((wordAfter "brd" (splitWords [] stdout.toList)).getD "255.255.255.255")

/-- `_send_local` -/
def sendLocal (magic : List UInt8) (iface : String) : WolProg (Except WolError Unit) := do
  let srcMac ← macForIface iface
  if ← (WolOp.sendFrame iface (repeatBytes 6 [0xff]) srcMac [0x08, 0x42] magic).perform then
    return .ok ()
  let bcast ← broadcastForIface iface
  if ← (WolOp.sendUdp magic bcast WOL_UDP_PORT).perform then
    return .ok ()
  if ← (WolOp.sendUdp magic "255.255.255.255" WOL_UDP_PORT).perform then
    return .ok ()
  return .error .allMethodsFailed

/-- The command that the relay is given. -/
def remoteCmd (macHex : String) : String :=
  "python3 -c \"" ++
  "import socket; " ++
  "mac=bytes.fromhex('" ++ macHex ++ "'); " ++
  "magic=b'\\xff'*6+mac*16; " ++
  "s=socket.socket(socket.AF_INET,socket.SOCK_DGRAM); " ++
  "s.setsockopt(socket.SOL_SOCKET,socket.SO_BROADCAST,1); " ++
  "s.sendto(magic,('255.255.255.255',9)); " ++
  "s.close()\""

/-- The command line of `_send_via_ssh`. -/
def sshArgv (relaySsh macAddress identityFile : String) : List String :=
  ["ssh", "-o", "BatchMode=yes", "-o", "ConnectTimeout=5"] ++
    (if identityFile = "" then [] else ["-i", identityFile]) ++
    [relaySsh, remoteCmd (macHex macAddress)]

/-- `_send_via_ssh`; the packet that it is given is not used. -/
def sendViaSsh (relaySsh macAddress : String) (_magic : List UInt8) (identityFile : String) :
    WolProg (Except WolError Unit) := do
  match ← (WolOp.ssh (sshArgv relaySsh macAddress identityFile)).perform with
  | none => pure (.error .relayRaised)
  | some code => pure (if code ≠ 0 then .error (.relayFailed code) else .ok ())

/-- `send` -/
def send (macAddress iface relaySsh relayIdentityFile : String) :
    WolProg (Except WolError Unit) :=
  match parseMac macAddress with
  | none => pure (.error .invalidMac)
  | some macBytes =>
    if relaySsh ≠ "" then sendViaSsh relaySsh macAddress (magic macBytes) relayIdentityFile
    else sendLocal (magic macBytes) iface

/-! ## The packet -/

variable {macAddress : String} {macBytes : List UInt8} {text : List Char}

/-- **What `bytes.fromhex` accepts** is made of digits and whitespace. -/
theorem hex_or_space_of_fromHex (h : fromHex text = some macBytes) :
    ∀ c ∈ text, isHexDigit c = true ∨ isAsciiSpace c = true := by
  refine Scanner.forall_of_scan (fun s c r hstep => ?_) h
  cases s with
  | none =>
    by_cases hc : isAsciiSpace c = true
    · exact .inr hc
    · have hstep' : (hexValue c).map (fun v => (some v, [])) = some r := by
        rw [← hstep]
        exact (if_neg hc).symm
      obtain ⟨v, hv, -⟩ := Option.map_eq_some_iff.mp hstep'
      exact .inl (Option.isSome_iff_exists.mpr ⟨v, hv⟩)
  | some v =>
    obtain ⟨w, hw, -⟩ := Option.map_eq_some_iff.mp hstep
    exact .inl (Option.isSome_iff_exists.mpr ⟨w, hw⟩)

theorem parseMac_eq_some : parseMac macAddress = some macBytes ↔
    fromHex (macHex macAddress).toList = some macBytes ∧ macBytes.length = 6 := by
  unfold parseMac
  cases fromHex (macHex macAddress).toList with
  | none => simp
  | some b =>
    simp only [Option.bind_eq_bind, Option.bind_some]
    split_ifs with hlen
    · simp only [Option.some.injEq, false_iff, not_and]
      rintro rfl
      exact hlen
    · simp only [Option.some.injEq]
      constructor
      · rintro rfl
        exact ⟨rfl, not_not.mp hlen⟩
      · exact And.left

theorem length_repeatBytes {n : ℕ} {data : List UInt8} :
    (repeatBytes n data).length = n * data.length := by
  simp [repeatBytes]

theorem length_magic (h : macBytes.length = 6) : (magic macBytes).length = 102 := by
  rw [magic, List.length_append, length_repeatBytes, length_repeatBytes, h]
  rfl

theorem mem_macHex {c : Char} (hc : c ≠ ':') (hc' : c ≠ '-') :
    c ∈ (macHex macAddress).toList ↔ c ∈ macAddress.toList := by
  simp [macHex, remove, hc, hc']

/-! ## What is sent -/

/-- The operation hands over to a relay, or sends another payload. -/
def WolOp.strays (packet : List UInt8) : WolOp → Bool
  | ssh _ => true
  | o => o.payload.any (· ≠ packet)

/-- The packet has been sent. -/
def Delivers (packet : List UInt8) : Event WolOp WolOp.Ans → Prop
  | ⟨.sendFrame _ _ _ _ payload, sent⟩ => payload = packet ∧ sent = true
  | ⟨.sendUdp payload _ _, sent⟩ => payload = packet ∧ sent = true
  | _ => False

/-- A run sends nothing but the packet, and sends it unless it raises. -/
structure SendsOnly (packet : List UInt8) (tr : List (Event WolOp WolOp.Ans))
    (r : Except WolError Unit) : Prop where
  only : ∀ e ∈ tr, e.1.strays packet = false
  sent : r = .ok () → ∃ e ∈ tr, Delivers packet e

variable {tr : List (Event WolOp WolOp.Ans)} {r : Except WolError Unit} {packet : List UInt8}
  {iface relaySsh relayIdentityFile : String}

theorem strays_sendUdp {host : String} {port : ℕ} :
    (WolOp.sendUdp packet host port).strays packet = false := by
  simp [WolOp.strays, WolOp.payload]

theorem avoids_macForIface : (macForIface iface).Avoids (WolOp.strays packet) := by
  refine ⟨rfl, fun text => ?_⟩
  cases text <;> trivial

theorem avoids_broadcastForIface : (broadcastForIface iface).Avoids (WolOp.strays packet) := by
  refine ⟨rfl, fun stdout => ?_⟩
  cases stdout <;> trivial

theorem avoids_sendLocal : (sendLocal packet iface).Avoids (WolOp.strays packet) := by
  refine avoids_macForIface.bind fun srcMac =>
    ⟨by simp [WolOp.strays, WolOp.payload], fun sent => ?_⟩
  cases sent with
  | true => trivial
  | false =>
    refine avoids_broadcastForIface.bind fun bcast => ⟨strays_sendUdp, fun sent => ?_⟩
    cases sent with
    | true => trivial
    | false =>
      refine ⟨strays_sendUdp, fun sent => ?_⟩
      cases sent <;> trivial

/-- **The local path.** -/
theorem sendsOnly_sendLocal (h : (sendLocal packet iface).Runs tr r) : SendsOnly packet tr r := by
  refine ⟨avoids_sendLocal.runs h, fun hr => ?_⟩
  obtain ⟨tr₁, srcMac, tr₂, rfl, -, sent, tr₃, rfl, h₁⟩ := Prog.runs_bind.mp h
  cases sent with
  | true => exact ⟨_, List.mem_append_right _ List.mem_cons_self, rfl, rfl⟩
  | false =>
    replace h₁ : ((broadcastForIface iface).bind _).Runs tr₃ r := h₁
    obtain ⟨tr₄, bcast, tr₅, rfl, -, sent, tr₆, rfl, h₂⟩ := Prog.runs_bind.mp h₁
    cases sent with
    | true => exact ⟨⟨.sendUdp packet bcast WOL_UDP_PORT, true⟩, by simp, rfl, rfl⟩
    | false =>
      obtain ⟨sent, tr₇, rfl, h₃⟩ := h₂
      cases sent with
      | true => exact ⟨⟨.sendUdp packet "255.255.255.255" WOL_UDP_PORT, true⟩, by simp, rfl, rfl⟩
      | false =>
        rw [hr] at h₃
        cases h₃.2

/-- **The relay** is given one command. -/
theorem runs_sendViaSsh (h : (sendViaSsh relaySsh macAddress packet relayIdentityFile).Runs tr r) :
    ∃ code, tr = [⟨.ssh (sshArgv relaySsh macAddress relayIdentityFile), code⟩] := by
  obtain ⟨code, tr', rfl, h⟩ := h
  refine ⟨code, ?_⟩
  cases code with
  | none => rw [h.1]
  | some code => rw [h.1]

theorem send_of_none (hm : parseMac macAddress = none) :
    send macAddress iface relaySsh relayIdentityFile = .ret (.error .invalidMac) := by
  unfold send
  simp only [hm]
  rfl

theorem send_of_some (hm : parseMac macAddress = some macBytes) :
    send macAddress iface relaySsh relayIdentityFile =
      if relaySsh ≠ "" then sendViaSsh relaySsh macAddress (magic macBytes) relayIdentityFile
      else sendLocal (magic macBytes) iface := by
  unfold send
  simp only [hm]

theorem runs_send_of_invalid (hm : parseMac macAddress = none)
    (h : (send macAddress iface relaySsh relayIdentityFile).Runs tr r) :
    tr = [] ∧ r = .error .invalidMac := by
  rw [send_of_none hm] at h
  exact h

theorem runs_send_local (hm : parseMac macAddress = some macBytes)
    (h : (send macAddress iface "" relayIdentityFile).Runs tr r) :
    SendsOnly (magic macBytes) tr r := by
  rw [send_of_some hm, if_neg (not_not.mpr rfl)] at h
  exact sendsOnly_sendLocal h

theorem runs_send_relay (hm : parseMac macAddress = some macBytes) (hr : relaySsh ≠ "")
    (h : (send macAddress iface relaySsh relayIdentityFile).Runs tr r) :
    ∃ code, tr = [⟨.ssh (sshArgv relaySsh macAddress relayIdentityFile), code⟩] := by
  rw [send_of_some hm, if_pos hr] at h
  exact runs_sendViaSsh h

theorem exists_run_send_relay (hm : parseMac macAddress = some macBytes) (hr : relaySsh ≠ "") :
    ∃ tr r, (send macAddress iface relaySsh relayIdentityFile).Runs tr r := by
  rw [send_of_some hm, if_pos hr]
  exact ⟨_, _, none, [], rfl, rfl, rfl⟩

-- what its runs are is said above; unfolding it would evaluate the text
attribute [irreducible] send

end UpsOrchestrator
