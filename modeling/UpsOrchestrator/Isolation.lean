import Mathlib.Data.List.NodupEquivFin
import Mathlib.Data.List.Sort
import UpsOrchestrator.Lib.Simulation
import UpsOrchestrator.Steps

/-!
# Devices that share no desktop

Contexts reach each other through `_desktop_peers` only. A server is compared with the same server
configured with some of its devices, where devices of one desktop are kept together.

* `Selection`, `Site.select`: some of the devices, and the site of these.
* `Site.exists_part`: their places among all devices; `Part.desktopPeers_emb`: the same peers.
* `Part.project`, `Part.lift`: each server simulates the other.
* **`isolated`**: what can be seen of the selected contexts is the same on both.
-/

set_option autoImplicit false

namespace UpsOrchestrator

open Lts

/-- The devices that are kept; those that share a desktop are kept together. -/
structure Selection where
  keeps : UPSDeviceConfig → Bool
  together : ∀ d d' : UPSDeviceConfig, d.desktop.isSome →
    d'.desktop.map (·.agentUrl) = d.desktop.map (·.agentUrl) → keeps d' = keeps d

/-- The devices of one desktop. -/
def Selection.desktop (url : String) : Selection where
  keeps d := d.desktop.map (·.agentUrl) = some url
  together _ _ _ h := by rw [h]

namespace Site

variable (s : Site) (S : Selection)

/-- The site of the devices that are kept. -/
def select : Site where
  devices := s.devices.filter S.keeps
  ids_nodup := s.ids_nodup.sublist (List.filter_sublist.map _)

/-- Where the devices that are kept are among all devices. -/
structure Part where
  emb : (s.select S).Ix ↪o s.Ix
  dev_emb : ∀ i, s.dev (emb i) = (s.select S).dev i
  mem_range : ∀ j, j ∈ Set.range emb ↔ S.keeps (s.dev j) = true

variable {s}

theorem dev_injective : Function.Injective s.dev :=
  List.nodup_iff_injective_get.mp s.ids_nodup.of_map

variable (s)

theorem exists_part : Nonempty (s.Part S) := by
  obtain ⟨emb, hemb⟩ := List.sublist_iff_exists_fin_orderEmbedding_get_eq.mp
    (List.filter_sublist (p := S.keeps) (l := s.devices))
  refine ⟨⟨emb, fun i => (hemb i).symm, fun j => ⟨?_, fun hj => ?_⟩⟩⟩
  · rintro ⟨i, rfl⟩
    have hi := List.get_mem (s.devices.filter S.keeps) i
    rw [hemb i] at hi
    exact (List.mem_filter.mp hi).2
  · have hmem : s.dev j ∈ (s.select S).devices := List.mem_filter.mpr ⟨List.get_mem _ j, hj⟩
    obtain ⟨i, hi⟩ := List.get_of_mem hmem
    exact ⟨i, dev_injective ((hemb i).symm.trans hi)⟩

end Site

namespace Site.Part

variable {s : Site} {S : Selection} (P : s.Part S)

/-- **The peers of a device that is kept are kept**, in the same order. -/
theorem desktopPeers_emb (i : (s.select S).Ix) (observers : Bool) :
    s.desktopPeers (P.emb i) observers = ((s.select S).desktopPeers i observers).map P.emb := by
  have hsorted : ∀ (s' : Site) (i' : s'.Ix), (s'.desktopPeers i' observers).SortedLT := by
    intro s' i'
    unfold desktopPeers
    cases (s'.dev i').desktop with
    | none => exact List.Pairwise.nil.sortedLT
    | some desktop => exact ((List.sortedLT_finRange _).pairwise.filter _).sortedLT
  have hmap : (((s.select S).desktopPeers i observers).map P.emb).SortedLT :=
    ((hsorted _ i).pairwise.map _ fun _ _ h => P.emb.strictMono h).sortedLT
  refine (hsorted s _).eq_of_mem_iff hmap fun j => ?_
  rw [List.mem_map]
  constructor
  · intro hj
    obtain ⟨hne, hobs, hi, hurl⟩ := mem_desktopPeers.mp hj
    have hkept : S.keeps (s.dev j) = S.keeps (s.dev (P.emb i)) := S.together _ _ hi hurl
    have hself : S.keeps (s.dev (P.emb i)) = true := (P.mem_range _).mp ⟨i, rfl⟩
    obtain ⟨k, rfl⟩ := (P.mem_range j).mpr (hkept.trans hself)
    refine ⟨k, mem_desktopPeers.mpr ⟨fun h => hne (congrArg P.emb h), ?_, ?_, ?_⟩, rfl⟩
    · rw [← P.dev_emb, hobs]
    · rwa [← P.dev_emb]
    · rw [← P.dev_emb, ← P.dev_emb, hurl]
  · rintro ⟨k, hk, rfl⟩
    obtain ⟨hne, hobs, hi, hurl⟩ := mem_desktopPeers.mp hk
    refine mem_desktopPeers.mpr ⟨fun h => hne (P.emb.injective h), ?_, ?_, ?_⟩
    · rw [P.dev_emb, hobs]
    · rwa [P.dev_emb]
    · rw [P.dev_emb, P.dev_emb, hurl]

/-! ## What is seen -/

/-- What the selected contexts have to do with a call or a restart. -/
noncomputable def act : Action s → Option (Action (s.select S))
  | .call j e k => (Function.partialInv P.emb j).map fun i => .call i e k
  | .restart e => some (.restart e)

theorem act_call_emb (i : (s.select S).Ix) (e : Env) (k : Call) :
    P.act (.call (P.emb i) e k) = some (.call i e k) := by
  simp [act, Function.partialInv_left P.emb.injective]

theorem act_call_of_notMem {j : s.Ix} (hj : j ∉ Set.range P.emb) (e : Env) (k : Call) :
    P.act (.call j e k) = none := by
  have hnone : Function.partialInv P.emb j = none :=
    Option.eq_none_iff_forall_ne_some.mpr fun i hi =>
      hj ⟨i, (P.emb.injective.isPartialInv i j).mp hi⟩
  simp [act, hnone]

/-- The contexts in the beginning, and every call on them with what it leaves. -/
noncomputable def view : View (World s) (Action s) ((s.select S).Ix → Ctx)
    (Action (s.select S) × ((s.select S).Ix → Ctx)) where
  start w i := w.ctx (P.emb i)
  step t := (P.act t.act).map fun a => (a, fun i => t.post.ctx (P.emb i))

end Site.Part

/-- All contexts of a site in the beginning, and every call with what it leaves. -/
def fullView (s : Site) : View (World s) (Action s) (s.Ix → Ctx) (Action s × (s.Ix → Ctx)) where
  start w := w.ctx
  step t := some (t.act, t.post.ctx)

namespace Site.Part

variable {s : Site} {S : Selection} (P : s.Part S) {w : World s} {w' : World (s.select S)}

/-- Up to the effects of the last step, the selected contexts are the same. -/
def Agree (w : World s) (w' : World (s.select S)) : Prop :=
  ∀ i, (w.ctx (P.emb i)).quiet = (w'.ctx i).quiet

variable {P}

theorem Agree.inOutage (h : P.Agree w w') (i : (s.select S).Ix) :
    (w.ctx (P.emb i)).inOutage = (w'.ctx i).inOutage := by
  have hq := congrArg Ctx.inOutage (h i)
  exact hq

theorem Agree.ownerView (h : P.Agree w w') (i : (s.select S).Ix) :
    (⟨(w.ctx (P.emb i)).reportsDesktopDown, (w.ctx (P.emb i)).finishedDesktopHandling⟩ : OwnerView) =
      ⟨(w'.ctx i).reportsDesktopDown, (w'.ctx i).finishedDesktopHandling⟩ := by
  have hdown := congrArg Ctx.reportsDesktopDown (h i)
  have hfinished := congrArg Ctx.finishedDesktopHandling (h i)
  exact congrArg₂ OwnerView.mk hdown hfinished

/-- **A context that is kept sees the same of its peers.** -/
theorem Agree.peersOf (h : P.Agree w w') (i : (s.select S).Ix) :
    w.peersOf (P.emb i) = w'.peersOf i := by
  unfold World.peersOf
  rw [P.desktopPeers_emb, P.desktopPeers_emb, List.any_map, List.map_map]
  congr 1
  · congr 1
    ext j
    exact h.inOutage j
  · apply List.map_congr_left
    intro j _
    exact h.ownerView j

theorem Agree.exec (h : P.Agree w w') (i : (s.select S).Ix) (e : Env) (k : Call) :
    k.exec (s.dev (P.emb i)) (w.peersOf (P.emb i)) e (w.ctx (P.emb i)).quiet =
      k.exec ((s.select S).dev i) (w'.peersOf i) e (w'.ctx i).quiet := by
  rw [P.dev_emb, h.peersOf, h i]

theorem Agree.update (h : P.Agree w w') (i : (s.select S).Ix) (c : Ctx) (j : (s.select S).Ix) :
    Function.update w.quiet (P.emb i) c (P.emb j) = Function.update w'.quiet i c j := by
  rw [Function.update_apply_of_injective _ P.emb.injective]
  by_cases hj : j = i
  · subst hj
    rw [Function.update_self, Function.update_self]
  · rw [Function.update_of_ne hj, Function.update_of_ne hj]
    exact h j

theorem Agree.restart (h : P.Agree w w') (e : Env) (i : (s.select S).Ix) :
    ((w.ctx (P.emb i)).quiet.reboot).resetStateOnStartup e =
      ((w'.ctx i).quiet.reboot).resetStateOnStartup e := by rw [h i]

/-! ## The two servers simulate each other -/

variable (P)

theorem agree_boot (e : Env) (disk : s.Ix → Ctx) (disk' : (s.select S).Ix → Ctx)
    (h : ∀ i, disk (P.emb i) = disk' i) (i : (s.select S).Ix) :
    (World.boot e disk).ctx (P.emb i) = (World.boot e disk').ctx i := by
  simp only [World.boot, h]

/-- The selected contexts go through what they would go through on their own; meanwhile the other
contexts make steps that do not concern them. -/
noncomputable def project : Simulation (system s) (system (s.select S)) P.view (fullView _) where
  rel w w' := w'.now ≤ w.now ∧ P.Agree w w'
  init := by
    rintro u ⟨e, disk, rfl⟩
    have hboot := P.agree_boot e disk (fun i => disk (P.emb i)) fun _ => rfl
    refine ⟨World.boot e fun i => disk (P.emb i), ⟨e, _, rfl⟩, ?_, le_rfl, fun i => ?_⟩
    · exact funext fun i => (hboot i).symm
    · rw [hboot i]
  step := by
    rintro ⟨w, a, v⟩ w' ht ⟨hnow, hagree⟩
    change w.step a = some v at ht
    cases a with
    | call j e k =>
      obtain ⟨hle, c, hc, rfl⟩ := step_call ht
      by_cases hj : j ∈ Set.range P.emb
      · obtain ⟨i, rfl⟩ := hj
        simp only [view, P.act_call_emb, Option.map_some]
        rw [hagree.exec] at hc
        refine ⟨⟨w', .call i e k, ⟨e.stop, Function.update w'.quiet i c⟩⟩, ?_, rfl, ?_, le_rfl, ?_⟩
        · simp [System.Takes, system, World.step, hc, Action.env, hnow.trans hle]
        · exact congrArg (fun f => some (Action.call i e k, f)) (funext (hagree.update i c)).symm
        · exact fun j => congrArg Ctx.quiet (hagree.update i c j)
      · simp only [view, P.act_call_of_notMem hj, Option.map_none]
        refine ⟨hnow.trans (hle.trans e.start_le_stop), fun i => ?_⟩
        have hi : P.emb i ≠ j := fun h => hj ⟨i, h⟩
        simp only [Function.update_of_ne hi]
        exact hagree i
    | restart e =>
      obtain ⟨hle, rfl⟩ := step_restart ht
      refine ⟨⟨w', .restart e, ⟨e.stop, fun i => ((w'.ctx i).quiet.reboot).resetStateOnStartup e⟩⟩,
        ?_, rfl, ?_, le_rfl, fun i => ?_⟩
      · simp [System.Takes, system, World.step, Action.env, hnow.trans hle]
      · exact congrArg (fun f => some (Action.restart e, f)) (funext (hagree.restart e)).symm
      · exact congrArg Ctx.quiet (hagree.restart e i)

/-- What the selected contexts can do on their own they can do among the others, which then do
nothing. -/
noncomputable def lift : Simulation (system (s.select S)) (system s) (fullView _) P.view where
  rel w' w := w.now ≤ w'.now ∧ P.Agree w w'
  init := by
    rintro u ⟨e, disk, rfl⟩
    have hdisk : ∀ i, Function.extend P.emb disk (fun _ => {}) (P.emb i) = disk i :=
      P.emb.injective.extend_apply disk _
    have hboot := P.agree_boot e _ disk hdisk
    refine ⟨World.boot e (Function.extend P.emb disk fun _ => {}), ⟨e, _, rfl⟩, ?_, le_rfl,
      fun i => ?_⟩
    · exact funext hboot
    · rw [hboot i]
  step := by
    rintro ⟨w', a, v⟩ w ht ⟨hnow, hagree⟩
    change w'.step a = some v at ht
    cases a with
    | call i e k =>
      obtain ⟨hle, c, hc, rfl⟩ := step_call ht
      rw [← hagree.exec] at hc
      refine ⟨⟨w, .call (P.emb i) e k, ⟨e.stop, Function.update w.quiet (P.emb i) c⟩⟩, ?_, rfl, ?_,
        le_rfl, ?_⟩
      · simp [System.Takes, system, World.step, hc, Action.env, hnow.trans hle]
      · simp only [view, P.act_call_emb, Option.map_some]
        exact congrArg (fun f => some (Action.call i e k, f)) (funext (hagree.update i c))
      · exact fun j => congrArg Ctx.quiet (hagree.update i c j)
    | restart e =>
      obtain ⟨hle, rfl⟩ := step_restart ht
      refine ⟨⟨w, .restart e, ⟨e.stop, fun j => ((w.ctx j).quiet.reboot).resetStateOnStartup e⟩⟩, ?_,
        rfl, ?_, le_rfl, fun i => ?_⟩
      · simp [System.Takes, system, World.step, Action.env, hnow.trans hle]
      · exact congrArg (fun f => some (Action.restart e, f)) (funext (hagree.restart e))
      · exact congrArg Ctx.quiet (hagree.restart e i)

end Site.Part

/-- **Devices that share no desktop do not influence each other**: the contexts of the selected
devices go through the same calls with the same outcomes as on a server that knows no others. -/
theorem isolated (s : Site) (S : Selection) : ∃ P : s.Part S,
    P.view.traces (system s) = (fullView (s.select S)).traces (system (s.select S)) := by
  obtain ⟨P⟩ := s.exists_part S
  exact ⟨P, traces_eq P.project P.lift⟩

end UpsOrchestrator
