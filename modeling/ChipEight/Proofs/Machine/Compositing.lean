import ChipEight.Proofs.Frame.Parity
import ChipEight.Proofs.Machine.Sprite

/-!
What drawing a sprite does to the picture, pixel by pixel, and to VF: with wrapped edges, and with kept ones, where it
may stop half way.
-/

namespace ChipEight

namespace Frame

/-- The picture after flips of these pixels, one after the other. -/
def flips (f : Frame) (targets : List (UInt16 × UInt16)) : Frame := f.strokes (targets.map fun t => .toggle t.1 t.2)

/-- `g` is `f` with just these pixels the other way round. -/
def Flipped (f g : Frame) (pixels : List (Nat × Nat)) : Prop :=
  ∀ i j, OnGrid i j → g.lit i j = (f.lit i j ^^ decide ((i, j) ∈ pixels))

/-- No pixel is flipped back where each is flipped at most once. -/
theorem flipped_flips (f : Frame) {targets : List (UInt16 × UInt16)} (h : (targets.map coords).Nodup) :
    f.Flipped (f.flips targets) (targets.map coords) := by
  intro i j hij
  have hclear : Stroke.clear ∉ targets.map fun t => Stroke.toggle t.1 t.2 := by simp
  have hcount : (targets.map fun t => Stroke.toggle t.1 t.2).countP (Stroke.flips i j) =
      if (i, j) ∈ targets.map coords then 1 else 0 := by
    rw [← h.count, List.count, List.countP_map, List.countP_map]
    refine List.countP_congr fun t _ => ?_
    simp [Stroke.flips, coords]
  rw [flips, lit_strokes f _ hij, Stroke.flipsSinceClear_of_not_mem hclear, hcount, decide_eq_true hclear, Bool.true_and]
  split
  · rename_i hmem
    simp [hmem]
  · rename_i hmem
    simp [hmem]

end Frame

namespace Machine

/-! ## Flips on a bare picture -/

section

variable {s : Headless} {targets : List (UInt16 × UInt16)}

theorem flipAll_of_nodup (hon : ∀ t ∈ targets, OnScreen t) (hnodup : (targets.map coords).Nodup) : flipAll s targets =
    (.ok ((targets.map coords).map fun p => s.frame.lit p.1 p.2), { s with frame := s.frame.flips targets }) := by
  induction targets generalizing s with
  | nil => rfl
  | cons t rest ih =>
      obtain ⟨x, y⟩ := t
      obtain ⟨hfirst, hrest⟩ := List.nodup_cons.mp hnodup
      have ht : Screen.toggle s x y =
          (.ok (s.frame.lit x.toNat y.toNat), { s with frame := (s.frame.toggle x y).2 }) :=
        Prod.ext ((s.frame.toggle_fst x y).trans (if_pos (hon (x, y) List.mem_cons_self))) rfl
      -- the first flip is elsewhere, so the others still find what was there before it
      have hsame : ((rest.map coords).map fun p => (s.frame.toggle x y).2.lit p.1 p.2) =
          (rest.map coords).map fun p => s.frame.lit p.1 p.2 := by
        refine List.map_congr_left fun p hp => ?_
        have hne : ¬ (Frame.OnGrid p.1 p.2 ∧ p.1 = x.toNat ∧ p.2 = y.toNat) := by
          rintro ⟨-, hx, hy⟩
          have hxy : p = coords (x, y) := Prod.ext hx hy
          exact hfirst (hxy ▸ hp)
        rw [Frame.lit_toggle, decide_eq_false hne, Bool.xor_false]
      rw [flipAll_of_toggled ht, ih (fun t ht => hon t (List.mem_cons_of_mem _ ht)) hrest, hsame]
      rfl

theorem flipAll_of_offGrid {t : UInt16 × UInt16} (hon : ∀ t ∈ targets, OnScreen t)
    (hnodup : (targets.map coords).Nodup) (hoff : ¬ OnScreen t) (rest : List (UInt16 × UInt16)) :
    flipAll s (targets ++ t :: rest) = (.error (.offGrid t.1 t.2), { s with frame := s.frame.flips targets }) := by
  obtain ⟨x, y⟩ := t
  let reached : Headless := { s with frame := s.frame.flips targets }
  have ht : Screen.toggle reached x y = (.error (.offGrid x y), reached) :=
    Prod.ext ((reached.frame.toggle_fst x y).trans (if_neg hoff))
      (congrArg (fun frame => { reached with frame }) (Frame.toggle_snd_of_not_onGrid hoff))
  rw [flipAll_append_of_ok (flipAll_of_nodup hon hnodup), flipAll_of_refused ht]
  rfl

end

/-! ## Draws -/

variable {m : Machine Headless} {x y : Register} {rows : Fin 16}

theorem draw_of_onGrid (hfits : Ram.Fits m.index rows) (hon : ∀ p ∈ m.spots x y rows, Frame.OnGrid p.1 p.2)
    (pc word : UInt16) : ∃ frame, m.screen.frame.Flipped frame (m.spots x y rows) ∧
      m.draw x y rows pc word = ⟨.ok (), [], { m with
        screen := ⟨frame, m.screen.renders + 1⟩
        v := m.rules.flag.update ((m.spots x y rows).map fun p => m.screen.frame.lit p.1 p.2) m.v }⟩ := by
  obtain ⟨sprite, hs⟩ := slice?_of_fits hfits
  have hspots := map_coords_targets (x := x) (y := y) hs
  have hnodup : ((m.targets x y sprite).map coords).Nodup := hspots ▸ m.nodup_spots x y rows
  have htargets : ∀ t ∈ m.targets x y sprite, OnScreen t :=
    fun t ht => hon (coords t) (hspots ▸ List.mem_map_of_mem ht)
  have hflipped := m.screen.frame.flipped_flips hnodup
  have hflip := flipAll_of_nodup (s := m.screen) htargets hnodup
  rw [hspots] at hflipped hflip
  exact ⟨_, hflipped, draw_of_flipped hs hflip pc word⟩

theorem draw_of_offGrid (hfits : Ram.Fits m.index rows) {before after : List (Nat × Nat)} {p : Nat × Nat}
    (hsplit : m.spots x y rows = before ++ p :: after) (hon : ∀ q ∈ before, Frame.OnGrid q.1 q.2)
    (hoff : ¬ Frame.OnGrid p.1 p.2) (pc word : UInt16) :
    ∃ frame px py, m.screen.frame.Flipped frame before ∧ coords (px, py) = p ∧ m.draw x y rows pc word =
      ⟨.error (.screen pc word (.offGrid px py)), [], { m with screen := ⟨frame, m.screen.renders⟩ }⟩ := by
  obtain ⟨sprite, hs⟩ := slice?_of_fits hfits
  have hspots := map_coords_targets (x := x) (y := y) hs
  obtain ⟨reached, rest, htargets, rfl, hrest⟩ := List.map_eq_append_iff.mp (hspots.trans hsplit)
  obtain ⟨t, rest, rfl, rfl, rfl⟩ := List.map_eq_cons_iff.mp hrest
  have hnodup : (reached.map coords).Nodup := by
    have hall := m.nodup_spots x y rows
    rw [hsplit] at hall
    exact hall.of_append_left
  have hflip := flipAll_of_offGrid (s := m.screen) (fun t ht => hon (coords t) (List.mem_map_of_mem ht)) hnodup hoff rest
  rw [← htargets] at hflip
  exact ⟨_, t.1, t.2, m.screen.frame.flipped_flips hnodup, rfl, draw_of_refused hs hflip pc word⟩

/-- With wrapped edges a sprite is laid over the picture as over a torus: a pixel changes just if the bit of the sprite
that falls on it is set. VF tells of the picture as it was before the draw: whether the sprite hit a lit pixel, or what
was under its last set bit. The corner is where Vx and Vy were before VF was written. -/
theorem draw_wrapped (hedge : m.rules.edge = .wrap) (hfits : Ram.Fits m.index rows) (pc word : UInt16) :
    let lit := m.screen.frame.lit
    let vx := (m.v.get x).toNat
    let vy := (m.v.get y).toNat
    let bit (i j : Nat) := m.spriteBit rows (((i : Int) - vx) % 64).toNat (((j : Int) - vy) % 32).toNat
    ∃ frame v,
      m.execute pc word (.drw x y rows) = ⟨.ok (), [], { m with screen := ⟨frame, m.screen.renders + 1⟩, v }⟩ ∧
      (∀ i j, Frame.OnGrid i j → frame.lit i j = (lit i j ^^ bit i j)) ∧
      (∀ r, r ≠ Register.flag → v.get r = m.v.get r) ∧
      match m.rules.flag with
      | .any => ∃ hit : Bool, (hit ↔ ∃ i j, Frame.OnGrid i j ∧ bit i j ∧ lit i j) ∧
          v.get Register.flag = hit.toUInt8
      | .last => v.get Register.flag = match (m.setBits rows).getLast? with
          | some (c, r) => (lit ((vx + c) % 64) ((vy + r) % 32)).toUInt8
          | none => m.v.get Register.flag := by
  intro lit vx vy bit
  obtain ⟨frame, hflipped, hdraw⟩ := draw_of_onGrid hfits (fun p hp => onGrid_of_wrap (x := x) (y := y) hedge hp) pc word
  have hbit : ∀ i j, Frame.OnGrid i j → ((i, j) ∈ m.spots x y rows ↔ bit i j) := fun i j h => mem_spots_wrap hedge h
  refine ⟨frame, _, hdraw, ?_, fun r hr => FlagRule.get_update _ _ _ hr, ?_⟩
  · intro i j hij
    have hdecide : decide ((i, j) ∈ m.spots x y rows) = bit i j :=
      Bool.eq_iff_iff.mpr (decide_eq_true_iff.trans (hbit i j hij))
    rw [hflipped i j hij, hdecide]
  · have hflag := FlagRule.get_update_flag m.rules.flag ((m.spots x y rows).map fun p => lit p.1 p.2) m.v
    cases hrule : m.rules.flag with
    | any =>
        rw [hrule] at hflag
        refine ⟨_, ?_, hflag⟩
        rw [List.any_map, List.any_eq_true]
        constructor
        · rintro ⟨⟨i, j⟩, hmem, hlit⟩
          have hij := onGrid_of_wrap hedge hmem
          exact ⟨i, j, hij, (hbit i j hij).mp hmem, hlit⟩
        · rintro ⟨i, j, hij, hb, hlit⟩
          exact ⟨(i, j), (hbit i j hij).mpr hb, hlit⟩
    | last =>
        rw [hrule] at hflag
        refine hflag.trans ?_
        rw [FlagRule.value?, List.getLast?_map, spots, List.getLast?_map]
        rcases (m.setBits rows).getLast? with _ | ⟨c, r⟩
        · rfl
        · simp only [Option.map_some, Option.elim_some, spot, hedge, EdgeRule.spot]
          rfl

/-- The top of a zero, its corner near the bottom right one of the grid as V0 and VF say, and again one row further down
where VF says so after the first draw. -/
theorem draw_wrapped_corner :
    let program := #[0x60, 0x3E, 0x6F, 0x1F, 0xD0, 0xF2, 0xD0, 0xF2]
    let m := ((start ({} : Headless) { edge := .wrap, flag := .any }).loadProgram program).2.after 3
    let s := m.execute 0x206 0xD0F2 (.drw 0 0xF 2)
    m.rules.edge = .wrap ∧ Ram.Fits m.index 2 ∧ (m.register 0xF, s.machine.register 0xF) = (0, 1) ∧ s.result = .ok () ∧
      s.machine.screen.frame.lit 1 31 = true ∧ s.machine.screen.frame.lit 0 0 = true ∧
      s.machine.screen.frame.lit 1 0 = false := by
  intro program m s
  have hedge : m.rules.edge = .wrap := by decide
  have hfits : Ram.Fits m.index (2 : Fin 16) := by decide
  have hflag : (m.register 0xF, s.machine.register 0xF) = (0, 1) := by decide
  obtain ⟨frame, v, hs, hlit, -, -⟩ := draw_wrapped (x := 0) (y := 0xF) hedge hfits 0x206 0xD0F2
  have hs : s = _ := hs
  refine ⟨hedge, hfits, hflag, ?_⟩
  rw [hs]
  refine ⟨rfl, ?_, ?_, ?_⟩
  · exact (hlit 1 31 (by decide)).trans (by decide)
  · exact (hlit 0 0 (by decide)).trans (by decide)
  · exact (hlit 1 0 (by decide)).trans (by decide)

/-- With kept edges a sprite is drawn bit by bit up to the first set bit that falls beyond the edge. That one is what the
fault names; those before it stay flipped, nothing is shown and no register changes. If there is none, the whole sprite
is drawn and shown. Bits that are not set may fall anywhere. -/
theorem draw_kept (hedge : m.rules.edge = .keep) (hfits : Ram.Fits m.index rows) (pc word : UInt16) :
    let s := m.execute pc word (.drw x y rows)
    let targets := (m.setBits rows).map fun (c, r) => ((m.v.get x).toNat + c, (m.v.get y).toNat + r)
    (match targets.find? fun p => ¬ Frame.OnGrid p.1 p.2 with
      | none => ∃ frame, m.screen.frame.Flipped frame targets ∧ s = ⟨.ok (), [], { m with
          screen := ⟨frame, m.screen.renders + 1⟩
          v := m.rules.flag.update (targets.map fun p => m.screen.frame.lit p.1 p.2) m.v }⟩
      | some p => ∃ frame px py,
          m.screen.frame.Flipped frame (targets.takeWhile fun p => Frame.OnGrid p.1 p.2) ∧ coords (px, py) = p ∧
          s = ⟨.error (.screen pc word (.offGrid px py)), [], { m with screen := ⟨frame, m.screen.renders⟩ }⟩) ∧
    (s.result = .ok () ↔
      ∀ c r, m.spriteBit rows c r → Frame.OnGrid ((m.v.get x).toNat + c) ((m.v.get y).toNat + r)) := by
  intro s targets
  have hspots : m.spots x y rows = targets := spots_keep hedge x y rows
  have hall : (∀ p ∈ targets, Frame.OnGrid p.1 p.2) ↔
      ∀ c r, m.spriteBit rows c r → Frame.OnGrid ((m.v.get x).toNat + c) ((m.v.get y).toNat + r) := by
    simp only [targets, List.forall_mem_map, Prod.forall, mem_setBits]
  rw [← hall]
  cases hfind : targets.find? fun p => ¬ Frame.OnGrid p.1 p.2 with
  | none =>
      have hon : ∀ p ∈ targets, Frame.OnGrid p.1 p.2 := by simpa using hfind
      obtain ⟨frame, hflipped, hdraw⟩ := draw_of_onGrid (x := x) (y := y) hfits (hspots ▸ hon) pc word
      rw [hspots] at hflipped hdraw
      exact ⟨⟨frame, hflipped, hdraw⟩, iff_of_true (congrArg Step.result hdraw) hon⟩
  | some p =>
      obtain ⟨hoff, before, after, hsplit, hbefore⟩ := List.find?_eq_some_iff_append.mp hfind
      have hoff : ¬ Frame.OnGrid p.1 p.2 := of_decide_eq_true hoff
      have hon : ∀ q ∈ before, Frame.OnGrid q.1 q.2 := by simpa using hbefore
      have htaken : (targets.takeWhile fun p => Frame.OnGrid p.1 p.2) = before := by
        rw [hsplit, List.takeWhile_append_of_pos (fun q hq => decide_eq_true (hon q hq)),
          List.takeWhile_cons_of_neg (by simpa using hoff), List.append_nil]
      obtain ⟨frame, px, py, hflipped, hp, hdraw⟩ := draw_of_offGrid hfits (hspots.trans hsplit) hon hoff pc word
      have hs : s.result = .error (.screen pc word (.offGrid px py)) := congrArg Step.result hdraw
      refine ⟨⟨frame, px, py, htaken.symm ▸ hflipped, hp, hdraw⟩, iff_of_false ?_ ?_⟩
      · rw [hs]
        exact nofun
      · intro hon
        exact hoff (hon p (hsplit ▸ List.mem_append_right _ List.mem_cons_self))

/-- A zero at the right edge: the three pixels of its top row that are there stay flipped, and the second row is not
reached. -/
theorem draw_kept_right_edge :
    let m := ((start ({} : Headless) {}).loadProgram #[0x60, 0x3D, 0xD0, 0x15]).2.after 1
    let s := m.execute 0x202 0xD015 (.drw 0 1 5)
    m.rules.edge = .keep ∧ Ram.Fits m.index 5 ∧ s.result = .error (.screen 0x202 0xD015 (.offGrid 64 0)) ∧
      s.machine.screen.renders = 0 ∧ s.machine.v = m.v ∧ s.machine.screen.frame.lit 61 0 = true ∧
      s.machine.screen.frame.lit 63 0 = true ∧ s.machine.screen.frame.lit 61 1 = false := by
  intro m s
  have hedge : m.rules.edge = .keep := by decide
  have hfits : Ram.Fits m.index (5 : Fin 16) := by decide
  have hresult : s.result = .error (.screen 0x202 0xD015 (.offGrid 64 0)) := by decide
  obtain ⟨hstop, -⟩ := draw_kept (x := 0) (y := 1) hedge hfits 0x202 0xD015
  split at hstop
  · obtain ⟨frame, -, hs⟩ := hstop
    have hok : s.result = .ok () := congrArg Step.result hs
    rw [hresult] at hok
    cases hok
  · obtain ⟨frame, px, py, hflipped, -, hs⟩ := hstop
    have hs : s = _ := hs
    refine ⟨hedge, hfits, hresult, ?_⟩
    rw [hs]
    refine ⟨rfl, rfl, ?_, ?_, ?_⟩
    · exact (hflipped 61 0 (by decide)).trans (by decide)
    · exact (hflipped 63 0 (by decide)).trans (by decide)
    · exact (hflipped 61 1 (by decide)).trans (by decide)

end Machine

end ChipEight
