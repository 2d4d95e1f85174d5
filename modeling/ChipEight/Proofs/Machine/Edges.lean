import ChipEight.Proofs.Machine.Call
import ChipEight.Proofs.Machine.Step

/-!
What the edge rules have in common. A machine that wraps its sprites does what one that keeps them does, until the
latter asks its screen for a pixel that is not there.
-/

namespace ChipEight

/-! ## Targets on the grid -/

abbrev OnScreen (target : UInt16 × UInt16) : Prop := Frame.OnGrid target.1.toNat target.2.toNat

theorem EdgeRule.onScreen_place_wrap (target : UInt16 × UInt16) : OnScreen (wrap.place target) := by
  obtain ⟨x, y⟩ := target
  constructor
  · simp only [place, UInt16.toNat_mod]
    exact Nat.mod_lt _ (by decide)
  · simp only [place, UInt16.toNat_mod]
    exact Nat.mod_lt _ (by decide)

theorem EdgeRule.place_wrap_of_onScreen {target : UInt16 × UInt16} (h : OnScreen target) :
    wrap.place target = target := by
  obtain ⟨x, y⟩ := target
  obtain ⟨hx, hy⟩ := h
  refine Prod.ext (UInt16.toNat_inj.mp ?_) (UInt16.toNat_inj.mp ?_)
  · simp only [place, UInt16.toNat_mod]
    exact Nat.mod_eq_of_lt hx
  · simp only [place, UInt16.toNat_mod]
    exact Nat.mod_eq_of_lt hy

namespace Machine

section

variable {σ : Type} [Screen σ] {s : σ} {x y : UInt16} {rest : List (UInt16 × UInt16)}

theorem flipAll_cons_of_error {e : ScreenFault} (h : (Screen.toggle s x y).1 = .error e) :
    (flipAll s ((x, y) :: rest)).1 = .error e :=
  congrArg Prod.fst (flipAll_of_refused (Prod.ext h rfl) rest)

theorem flipAll_cons_of_ok {erased : Bool} (h : (Screen.toggle s x y).1 = .ok erased) :
    (flipAll s ((x, y) :: rest)).1 = (flipAll (Screen.toggle s x y).2 rest).1.map (erased :: ·) :=
  congrArg Prod.fst (flipAll_of_toggled (Prod.ext h rfl) rest)

end

variable {targets : List (UInt16 × UInt16)}

theorem flipAll_of_onScreen (s : Headless) (h : ∀ t ∈ targets, OnScreen t) :
    ∃ erased, (flipAll s targets).1 = .ok erased := by
  induction targets generalizing s with
  | nil => exact ⟨[], rfl⟩
  | cons t rest ih =>
      obtain ⟨x, y⟩ := t
      have ht : (Screen.toggle s x y).1 = .ok (s.frame.lit x.toNat y.toNat) :=
        (s.frame.toggle_fst x y).trans (if_pos (h (x, y) List.mem_cons_self))
      obtain ⟨more, hm⟩ := ih (Screen.toggle s x y).2 fun t ht => h t (List.mem_cons_of_mem _ ht)
      refine ⟨s.frame.lit x.toNat y.toNat :: more, ?_⟩
      rw [flipAll_cons_of_ok ht, hm]
      rfl

theorem flipAll_of_not_onScreen (s : Headless) (h : ∃ t ∈ targets, ¬ OnScreen t) :
    ∃ x y, (flipAll s targets).1 = .error (.offGrid x y) := by
  induction targets generalizing s with
  | nil =>
      obtain ⟨t, ht, _⟩ := h
      cases ht
  | cons t rest ih =>
      obtain ⟨x, y⟩ := t
      by_cases hxy : OnScreen (x, y)
      · have ht : (Screen.toggle s x y).1 = .ok (s.frame.lit x.toNat y.toNat) :=
          (s.frame.toggle_fst x y).trans (if_pos hxy)
        obtain ⟨t, hmem, hoff⟩ := h
        rcases List.mem_cons.mp hmem with rfl | hmem
        · exact absurd hxy hoff
        · obtain ⟨x', y', he⟩ := ih (Screen.toggle s x y).2 ⟨t, hmem, hoff⟩
          refine ⟨x', y', ?_⟩
          rw [flipAll_cons_of_ok ht, he]
          rfl
      · exact ⟨x, y, flipAll_cons_of_error ((s.frame.toggle_fst x y).trans (if_neg hxy))⟩

end Machine

/-! ## Calls -/

/-- The machine asked its screen for a pixel that is not there. -/
def fellOff : Except Fault Unit → Bool
  | .error (.screen _ _ (.offGrid _ _)) => true
  | _ => false

def Machine.withEdge {σ : Type} (m : Machine σ) (edge : EdgeRule) : Machine σ :=
  { m with rules := { m.rules with edge } }

def Step.withEdge {σ : Type} (s : Step σ) (edge : EdgeRule) : Step σ := { s with machine := s.machine.withEdge edge }

/-- How a step with wrapped edges goes, given how it goes with kept ones. -/
def Step.Widens (kept wrapped : Step Headless) : Prop :=
  if fellOff kept.result then wrapped.result = .ok () else wrapped = kept.withEdge .wrap

theorem Step.Widens.cons {kept wrapped : Step Headless} (h : Widens kept wrapped) (e : Event) :
    Widens { kept with events := e :: kept.events } { wrapped with events := e :: wrapped.events } := by
  unfold Widens at h ⊢
  split at h
  · case isTrue hk => rwa [if_pos hk]
  · case isFalse hk => rw [if_neg hk, h]; rfl

namespace Machine

variable {m : Machine Headless}

theorem draw_widens (hm : m.rules.edge = .keep) (x y : Register) (rows : Fin 16) (pc word : UInt16) :
    Step.Widens (m.draw x y rows pc word) ((m.withEdge .wrap).draw x y rows pc word) := by
  unfold draw
  simp only [withEdge, hm]
  cases m.ram.slice? m.index rows with
  | none => rfl
  | some sprite =>
      simp only
      generalize spriteTargets m.v[x] m.v[y] sprite = targets
      have hkept : targets.map EdgeRule.keep.place = targets := List.map_id' targets
      by_cases hon : ∀ t ∈ targets, OnScreen t
      · -- wrapping moves none of the targets
        have hwrapped : targets.map EdgeRule.wrap.place = targets :=
          (List.map_congr_left fun t ht => EdgeRule.place_wrap_of_onScreen (hon t ht)).trans (List.map_id' targets)
        obtain ⟨erased, he⟩ := flipAll_of_onScreen m.screen hon
        rw [hkept, hwrapped]
        rcases hf : flipAll m.screen targets with ⟨answers, screen⟩
        rw [hf] at he
        obtain rfl : answers = .ok erased := he
        rfl
      · have hoff : ∃ t ∈ targets, ¬ OnScreen t := by
          simpa only [Classical.not_forall, exists_prop] using hon
        have hwrapped : ∀ t ∈ targets.map EdgeRule.wrap.place, OnScreen t := by
          intro t ht
          obtain ⟨t, -, rfl⟩ := List.mem_map.mp ht
          exact EdgeRule.onScreen_place_wrap t
        obtain ⟨x', y', he⟩ := flipAll_of_not_onScreen m.screen hoff
        obtain ⟨erased, hw⟩ := flipAll_of_onScreen m.screen hwrapped
        rw [hkept]
        rcases hf : flipAll m.screen targets with ⟨answers, screen⟩
        rcases hf' : flipAll m.screen (targets.map EdgeRule.wrap.place) with ⟨answers', screen'⟩
        rw [hf] at he
        rw [hf'] at hw
        obtain rfl : answers = .error (.offGrid x' y') := he
        obtain rfl : answers' = .ok erased := hw
        rfl

theorem execute_widens (hm : m.rules.edge = .keep) (pc word : UInt16) (i : Instr) :
    Step.Widens (m.execute pc word i) ((m.withEdge .wrap).execute pc word i) := by
  cases i with
  | drw x y rows => exact draw_widens hm x y rows pc word
  | _ => rfl

theorem step_widens (hm : m.rules.edge = .keep) : Step.Widens m.step (m.withEdge .wrap).step := by
  have hf : (m.withEdge .wrap).fetch = m.fetch := rfl
  unfold step
  rw [hf]
  rcases h : m.fetch with e | word
  · obtain rfl := fetch_error h
    rfl
  · exact (execute_widens (m := { m with pc := m.pc + 2 }) hm m.pc word (Instr.decode word)).cons _

end Machine

/-! ## Runs of calls -/

namespace Session

def withEdge {σ : Type} (s : Session σ) (edge : EdgeRule) : Session σ := { s with machine := s.machine.withEdge edge }

def Widens (kept wrapped : Except Fault Unit × Session Headless) : Prop :=
  if fellOff kept.1 then wrapped.1 = .ok () else wrapped = (kept.1, kept.2.withEdge .wrap)

variable {s : Session Headless}

theorem load_widens (data : Array UInt8) (address : UInt16) :
    Widens (s.load data address) ((s.withEdge .wrap).load data address) := by
  unfold load Machine.load
  have hram : (s.withEdge .wrap).machine.ram = s.machine.ram := rfl
  rw [hram]
  rcases h : s.machine.ram.write data address with e | ram
  · obtain ⟨-, rfl⟩ := Ram.write_eq_error_iff.mp h
    rfl
  · rfl

theorem ask_widens (hs : s.machine.rules.edge = .keep) (r : Request) :
    Widens (s.ask r) ((s.withEdge .wrap).ask r) := by
  cases r with
  | load data address => exact load_widens data address
  | loadProgram program => exact load_widens program s.machine.ram.origin
  | step =>
      have h := Machine.step_widens hs
      unfold Step.Widens at h
      unfold Widens
      split at h
      · case isTrue hk =>
          rw [if_pos (show fellOff (s.ask .step).1 = true from hk)]
          exact h
      · case isFalse hk =>
          rw [if_neg (show ¬ fellOff (s.ask .step).1 = true from hk)]
          simp only [ask, Session.step, withEdge, h]
          rfl

theorem withEdge_of_edge {σ : Type} {s : Session σ} {edge : EdgeRule} (h : s.machine.rules.edge = edge) :
    s.withEdge edge = s := by
  subst h
  rfl

/-- A machine that wraps its sprites does what one that keeps them does, up to the first call at which the latter falls
off its screen: the same answers from the same states. That call succeeds with wrapped edges. -/
theorem wrapped_extends_kept (s : Session Headless) (requests : List Request) :
    let kept := (s.withEdge .keep).answers requests
    let wrapped := (s.withEdge .wrap).answers requests
    let n := kept.findIdx (fellOff ·.1)
    wrapped.take n = (kept.take n).map (fun a => (a.1, a.2.withEdge .wrap)) ∧
      wrapped[n]?.map (·.1) = kept[n]?.map fun _ => .ok () := by
  induction requests generalizing s with
  | nil => exact ⟨rfl, rfl⟩
  | cons r requests ih =>
      have hr : Widens ((s.withEdge .keep).ask r) ((s.withEdge .wrap).ask r) := ask_widens rfl r
      unfold Widens at hr
      simp only [answers, List.findIdx_cons]
      split at hr
      · case isTrue hk =>
          simp [hk, hr]
      · case isFalse hk =>
          have hedge : (((s.withEdge .keep).ask r).2).withEdge .keep = ((s.withEdge .keep).ask r).2 :=
            withEdge_of_edge (by rw [ask_rules]; rfl)
          obtain ⟨hbefore, hat⟩ := ih ((s.withEdge .keep).ask r).2
          rw [hedge] at hbefore hat
          simp [hk, hr, hbefore, hat]

/-- The corner of a zero at the right edge. -/
example :
    let requests := [.loadProgram #[0x60, 0x3F, 0xD0, 0x15], .step, .step]
    (((start ({} : Headless) { edge := .keep }).answers requests).map (fellOff ·.1),
      ((start ({} : Headless) { edge := .wrap }).answers requests).map (fellOff ·.1)) =
    ([false, false, true], [false, false, false]) := by
  decide

end Session

end ChipEight
