import UpsOrchestrator.Config
import Mathlib.Data.List.Forall2

/-!
# From the configuration to the peers

* `LoadsAs`: what the loader makes of an entry; a primary without a desktop takes that of the single
  observer.
* `WellWired`: primaries and observers agree on who shares a desktop, and a primary is an owner of the
  observer whose desktop it took.
* `Wiring`: when the loader fails, what it returns, and how the contexts are wired; **`wiring`**: for
  every list of entries.
-/

set_option autoImplicit false

namespace UpsOrchestrator

/-! ## Traversals that can fail -/

section

variable {ε α β : Type} {f : α → Except ε β} {l : List α} {l' : List β}

theorem mapM_eq_ok_iff : l.mapM f = .ok l' ↔ List.Forall₂ (fun a b => f a = .ok b) l l' := by
  induction l generalizing l' with
  | nil => cases l' <;> simp [pure, Except.pure]
  | cons a l ih =>
    rw [List.mapM_cons]
    cases ha : f a with
    | error e => cases l' <;> simp [bind, Except.bind, ha]
    | ok b =>
      cases hl : l.mapM f with
      | error e => cases l' <;> simp [bind, Except.bind, ← ih, hl, ha]
      | ok bs => cases l' <;> simp [bind, Except.bind, pure, Except.pure, ← ih, hl, ha]

theorem exists_mapM_eq_error_iff :
    (∃ e, l.mapM f = .error e) ↔ ∃ a ∈ l, ∃ e, f a = .error e := by
  induction l with
  | nil => simp [pure, Except.pure]
  | cons a l ih =>
    rw [List.mapM_cons, List.exists_mem_cons_iff, ← ih]
    cases ha : f a with
    | error e => simp [bind, Except.bind]
    | ok b => cases hl : l.mapM f <;> simp [bind, Except.bind, pure, Except.pure]

end

/-! ## Entries -/

/-- The role of an entry, if it is one. -/
def RawDevice.parsedRole (d : RawDevice) : Option Role := parseRole (d.role.getD (some "primary"))

/-- The observers among the entries. -/
def observersOf (entries : List RawDevice) : List RawDevice :=
  entries.filter fun d => d.parsedRole = some .observer

/-- The desktop of the single observer. -/
def soleDesktop : List RawDevice → Option DesktopConfig
  | [d] => d.desktop
  | _ => none

/-- A primary without a desktop, where there are several to choose from. -/
def Ambiguous (entries : List RawDevice) : Prop :=
  (∃ d ∈ entries, d.parsedRole = some .primary ∧ d.desktop = none) ∧
    2 ≤ (observersOf entries).length

/-- **What the loader makes of an entry**, with the observers of the file. -/
structure LoadsAs (observers : List RawDevice) (d : RawDevice) (dev : UPSDeviceConfig) : Prop where
  id : dev.id = d.id
  nutName : dev.nutName = d.nutName
  role : d.parsedRole = some dev.role
  timing : dev.timing = parseTiming d.timing
  wolRelay : dev.wolRelay = d.wolRelay
  upscmd : dev.upscmd.shutdown = d.upscmdShutdown.getD "shutdown.return"
  explicit : d.desktop ≠ none → dev.desktop = d.desktop
  observer : dev.role = .observer → dev.desktop = d.desktop
  inherited : dev.role = .primary → d.desktop = none → dev.desktop = soleDesktop observers

/-- **How the contexts see each other.** -/
structure WellWired (entries : List RawDevice) (s : Site) : Prop where
  symmetric : ∀ p o : s.Ix, (s.dev p).role = .primary → (s.dev o).role = .observer →
    (p ∈ s.desktopPeers o false ↔ o ∈ s.desktopPeers p true)
  irreflexive : ∀ (i : s.Ix) (observers : Bool), i ∉ s.desktopPeers i observers
  /-- a primary that took a desktop is an owner of the observer that it has it from -/
  owner : ∀ (i : s.Ix) (d : RawDevice) (desktop : DesktopConfig), entries[i.val]? = some d →
    (s.dev i).role = .primary → d.desktop = none → (s.dev i).desktop = some desktop →
    ∃ (o : s.Ix) (r : RawDevice), observersOf entries = [r] ∧ entries[o.val]? = some r ∧
      r.desktop = some desktop ∧ i ∈ s.desktopPeers o false

/-- **The loader and the wiring** of a list of entries. -/
structure Wiring (entries : List RawDevice) : Prop where
  fails : (∃ e, loadUpsDevices entries = .error e) ↔
    (∃ d ∈ entries, d.parsedRole = none) ∨ Ambiguous entries
  loads : ∀ devices, loadUpsDevices entries = .ok devices →
    List.Forall₂ (LoadsAs (observersOf entries)) entries devices
  wired : ∀ s : Site, loadUpsDevices entries = .ok s.devices → WellWired entries s

/-! ## The two passes -/

/-- The desktop of the single observer, after the first pass. -/
def soleOf : List UPSDeviceConfig → Option DesktopConfig
  | [o] => o.desktop
  | _ => none

/-- The desktop that a device ends up with. -/
def UPSDeviceConfig.finalDesktop (dev : UPSDeviceConfig) (sole : Option DesktopConfig) :
    Option DesktopConfig :=
  if dev.isObserver = true ∨ dev.desktop.isSome = true then dev.desktop else sole

section

variable {d : RawDevice} {dev dev' : UPSDeviceConfig} {observers : List UPSDeviceConfig}

theorem exists_parseDevice_eq_error_iff :
    (∃ e, parseDevice d = .error e) ↔ d.parsedRole = none := by
  unfold parseDevice RawDevice.parsedRole
  cases hr : parseRole (d.role.getD (some "primary")) <;> simp [hr]

/-- **The first pass** takes the desktop of the entry. -/
theorem loadsAs_of_parseDevice (h : parseDevice d = .ok dev) (observers : List RawDevice) :
    dev.desktop = d.desktop ∧ LoadsAs observers d
      { dev with desktop := dev.finalDesktop (soleDesktop observers) } := by
  unfold parseDevice at h
  cases hr : parseRole (d.role.getD (some "primary")) with
  | none => simp [hr] at h
  | some r =>
    simp only [hr, Except.ok.injEq] at h
    subst h
    refine ⟨rfl, rfl, rfl, hr, rfl, rfl, ?_, fun hd => ?_, fun ho => ?_, fun hp hd => ?_⟩
    · cases d.upscmdShutdown <;> rfl
    · simp [UPSDeviceConfig.finalDesktop, Option.isSome_iff_ne_none.mpr hd]
    · simp [UPSDeviceConfig.finalDesktop, UPSDeviceConfig.isObserver, show r = .observer from ho]
    · simp [UPSDeviceConfig.finalDesktop, UPSDeviceConfig.isObserver, show r = .primary from hp, hd]

theorem isObserver_of_parseDevice (h : parseDevice d = .ok dev) :
    dev.isObserver = true ↔ d.parsedRole = some .observer := by
  rw [(loadsAs_of_parseDevice h []).2.role]
  simp [UPSDeviceConfig.isObserver]

theorem isObserver_eq_false_of_parseDevice (h : parseDevice d = .ok dev) :
    dev.isObserver = false ↔ d.parsedRole = some .primary := by
  rw [(loadsAs_of_parseDevice h []).2.role]
  unfold UPSDeviceConfig.isObserver
  cases dev.role <;> simp

theorem exists_inheritDesktop_eq_error_iff : (∃ e, inheritDesktop observers dev = .error e) ↔
    dev.isObserver = false ∧ dev.desktop = none ∧ 2 ≤ observers.length := by
  unfold inheritDesktop
  by_cases h : dev.isObserver = true ∨ dev.desktop.isSome = true
  · rw [if_pos h]
    rcases h with h | h
    · simp [h]
    · simp [Option.isSome_iff_ne_none.mp h]
  · rw [if_neg h]
    obtain ⟨hobs, hdesk⟩ := not_or.mp h
    match observers with
    | [] => simp
    | [o] => simp
    | _ :: _ :: _ => simpa [hobs] using hdesk

/-- **The second pass** gives a primary the single observer's desktop. -/
theorem inheritDesktop_eq_ok (h : inheritDesktop observers dev = .ok dev') :
    dev' = { dev with desktop := dev.finalDesktop (soleOf observers) } := by
  unfold inheritDesktop at h
  unfold UPSDeviceConfig.finalDesktop
  by_cases hd : dev.isObserver = true ∨ dev.desktop.isSome = true
  · rw [if_pos hd] at h ⊢
    exact (Except.ok.inj h).symm
  · rw [if_neg hd] at h ⊢
    have hnone : dev.desktop = none := by simpa using (not_or.mp hd).2
    rcases observers with _ | ⟨o, _ | ⟨o', rest⟩⟩
    · obtain rfl := Except.ok.inj h
      show dev = { dev with desktop := none }
      rw [← hnone]
    · exact (Except.ok.inj h).symm
    · exact absurd h (by simp)

end

section

variable {α β γ : Type} {R : α → β → Prop} {R' : β → γ → Prop} {T : α → γ → Prop} {l : List α}
  {l' : List β} {l'' : List γ}

theorem exists_of_forall₂_left {a : α} (h : List.Forall₂ R l l') (ha : a ∈ l) :
    ∃ b ∈ l', R a b := by
  induction h with
  | nil => exact absurd ha (by simp)
  | cons hab _ ih =>
    rcases List.mem_cons.mp ha with rfl | ha
    · exact ⟨_, List.mem_cons_self, hab⟩
    · obtain ⟨b, hb, hR⟩ := ih ha
      exact ⟨b, List.mem_cons_of_mem _ hb, hR⟩

theorem exists_of_forall₂_right {b : β} (h : List.Forall₂ R l l') (hb : b ∈ l') :
    ∃ a ∈ l, R a b :=
  exists_of_forall₂_left (R := flip R) h.flip hb

theorem forall₂_comp (h : List.Forall₂ R l l') (h' : List.Forall₂ R' l' l'')
    (hT : ∀ a b c, R a b → R' b c → T a c) : List.Forall₂ T l l'' := by
  induction h generalizing l'' with
  | nil =>
    cases h'
    exact .nil
  | cons hab _ ih =>
    cases h' with
    | cons hbc h' => exact .cons (hT _ _ _ hab hbc) (ih h')

end

/-! ## The loader -/

section

variable {entries : List RawDevice} {parsed devices : List UPSDeviceConfig}

theorem forall₂_observers (h : List.Forall₂ (fun d dev => parseDevice d = .ok dev) entries parsed) :
    List.Forall₂ (fun d dev => parseDevice d = .ok dev) (observersOf entries)
      (parsed.filter (·.isObserver)) := by
  refine List.rel_filter ?_ h
  intro d dev hd
  exact decide_eq_true_iff.trans (isObserver_of_parseDevice hd).symm

theorem soleOf_eq (h : List.Forall₂ (fun d dev => parseDevice d = .ok dev) entries parsed) :
    soleOf (parsed.filter (·.isObserver)) = soleDesktop (observersOf entries) := by
  have hobs := forall₂_observers h
  generalize observersOf entries = raw at hobs
  generalize parsed.filter (·.isObserver) = devs at hobs
  cases hobs with
  | nil => rfl
  | cons hd hrest =>
    cases hrest with
    | nil => exact (loadsAs_of_parseDevice hd []).1
    | cons _ _ => rfl

theorem loadUpsDevices_eq_ok_iff : loadUpsDevices entries = .ok devices ↔
    ∃ parsed, List.Forall₂ (fun d dev => parseDevice d = .ok dev) entries parsed ∧
      List.Forall₂ (fun dev dev' => inheritDesktop (parsed.filter (·.isObserver)) dev = .ok dev')
        parsed devices := by
  unfold loadUpsDevices
  cases h : entries.mapM parseDevice with
  | error e =>
    simp only [← mapM_eq_ok_iff, h]
    simp [bind, Except.bind]
  | ok parsed =>
    simp only [← mapM_eq_ok_iff, h]
    simp [bind, Except.bind]

/-- **What the loader returns.** -/
theorem forall₂_loadsAs (h : loadUpsDevices entries = .ok devices) :
    List.Forall₂ (LoadsAs (observersOf entries)) entries devices := by
  obtain ⟨parsed, hparse, hinherit⟩ := loadUpsDevices_eq_ok_iff.mp h
  refine forall₂_comp hparse hinherit fun d dev dev' hd hdev => ?_
  rw [inheritDesktop_eq_ok hdev, soleOf_eq hparse]
  exact (loadsAs_of_parseDevice hd _).2

/-- **When the loader fails.** -/
theorem exists_loadUpsDevices_eq_error_iff : (∃ e, loadUpsDevices entries = .error e) ↔
    (∃ d ∈ entries, d.parsedRole = none) ∨ Ambiguous entries := by
  have hfails : (∃ e, entries.mapM parseDevice = .error e) ↔
      ∃ d ∈ entries, d.parsedRole = none := by
    simp only [exists_mapM_eq_error_iff, exists_parseDevice_eq_error_iff]
  unfold loadUpsDevices
  cases h : entries.mapM parseDevice with
  | error e =>
    refine iff_of_true ⟨e, rfl⟩ (.inl (hfails.mp ⟨e, h⟩))
  | ok parsed =>
    have hparse := mapM_eq_ok_iff.mp h
    have hrole : ¬∃ d ∈ entries, d.parsedRole = none := by
      rw [← hfails, h]
      simp
    rw [or_iff_right hrole]
    show (∃ e, parsed.mapM (inheritDesktop (parsed.filter (·.isObserver))) = .error e) ↔ _
    rw [exists_mapM_eq_error_iff]
    simp only [exists_inheritDesktop_eq_error_iff, ← (forall₂_observers hparse).length_eq]
    constructor
    · rintro ⟨dev, hdev, hobs, hdesk, hlen⟩
      obtain ⟨d, hd, hp⟩ := exists_of_forall₂_right hparse hdev
      have hdesktop := (loadsAs_of_parseDevice hp []).1
      exact ⟨⟨d, hd, (isObserver_eq_false_of_parseDevice hp).mp hobs, hdesktop ▸ hdesk⟩, hlen⟩
    · rintro ⟨⟨d, hd, hrole, hdesk⟩, hlen⟩
      obtain ⟨dev, hdev, hp⟩ := exists_of_forall₂_left hparse hd
      have hdesktop := (loadsAs_of_parseDevice hp []).1
      exact ⟨dev, hdev, (isObserver_eq_false_of_parseDevice hp).mpr hrole, hdesktop.trans hdesk,
        hlen⟩

end

/-! ## The contexts -/

section

variable {entries : List RawDevice} {s : Site}

theorem loadsAs_dev (h : loadUpsDevices entries = .ok s.devices) {i : s.Ix} {d : RawDevice}
    (hd : entries[i.val]? = some d) : LoadsAs (observersOf entries) d (s.dev i) := by
  obtain ⟨hi, rfl⟩ := List.getElem?_eq_some_iff.mp hd
  exact (forall₂_loadsAs h).get hi i.isLt

/-- **An heir is an owner** of the observer whose desktop it took. -/
theorem mem_desktopPeers_of_inherited (h : loadUpsDevices entries = .ok s.devices) {i : s.Ix}
    {d : RawDevice} {desktop : DesktopConfig} (hd : entries[i.val]? = some d)
    (hrole : (s.dev i).role = .primary) (hnone : d.desktop = none)
    (hdesk : (s.dev i).desktop = some desktop) : ∃ (o : s.Ix) (r : RawDevice),
      observersOf entries = [r] ∧ entries[o.val]? = some r ∧ r.desktop = some desktop ∧
        i ∈ s.desktopPeers o false := by
  have hsole : soleDesktop (observersOf entries) = some desktop := by
    rw [← (loadsAs_dev h hd).inherited hrole hnone, hdesk]
  obtain ⟨r, hobs⟩ : ∃ r, observersOf entries = [r] := by
    match hobs : observersOf entries with
    | [] => simp [hobs, soleDesktop] at hsole
    | [r] => exact ⟨r, rfl⟩
    | _ :: _ :: _ => simp [hobs, soleDesktop] at hsole
  have hmem : r ∈ observersOf entries := by rw [hobs]; exact List.mem_singleton_self r
  obtain ⟨hentry, hparsed⟩ := List.mem_filter.mp hmem
  obtain ⟨j, hj⟩ := List.mem_iff_getElem?.mp hentry
  have hlt : j < s.devices.length := by
    rw [← (forall₂_loadsAs h).length_eq]
    exact (List.getElem?_eq_some_iff.mp hj).1
  have hloads : LoadsAs (observersOf entries) r (s.dev ⟨j, hlt⟩) := loadsAs_dev h hj
  have hobserver : (s.dev ⟨j, hlt⟩).role = .observer := by
    have hrole' := hloads.role
    rw [of_decide_eq_true hparsed] at hrole'
    exact (Option.some.inj hrole').symm
  have hrdesk : r.desktop = some desktop := by
    rw [hobs] at hsole
    exact hsole
  have hodesk : (s.dev ⟨j, hlt⟩).desktop = some desktop := by
    rw [hloads.observer hobserver, hrdesk]
  refine ⟨⟨j, hlt⟩, r, hobs, hj, hrdesk, Site.mem_desktopPeers.mpr ⟨?_, ?_, ?_, ?_⟩⟩
  · rintro rfl
    rw [hobserver] at hrole
    exact absurd hrole (by simp)
  · simp [UPSDeviceConfig.isObserver, hrole]
  · simp [hodesk]
  · rw [hodesk, hdesk]

theorem wellWired (h : loadUpsDevices entries = .ok s.devices) : WellWired entries s where
  symmetric p o hp ho := by
    have hprimary : (s.dev p).isObserver = false := by simp [UPSDeviceConfig.isObserver, hp]
    have hobserver : (s.dev o).isObserver = true := by simp [UPSDeviceConfig.isObserver, ho]
    constructor
    · intro hmem
      rw [← hobserver]
      exact Site.mem_desktopPeers_comm hmem
    · intro hmem
      rw [← hprimary]
      exact Site.mem_desktopPeers_comm hmem
  irreflexive i observers hmem := Site.ne_of_mem_desktopPeers hmem rfl
  owner _ _ _ hd hrole hnone hdesk := mem_desktopPeers_of_inherited h hd hrole hnone hdesk

end

/-- **The configuration is wired as it is written**, whatever the entries. -/
theorem wiring (entries : List RawDevice) : Wiring entries where
  fails := exists_loadUpsDevices_eq_error_iff
  loads _ := forall₂_loadsAs
  wired _ := wellWired

end UpsOrchestrator
