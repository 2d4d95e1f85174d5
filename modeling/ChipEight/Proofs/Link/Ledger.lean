import ChipEight.Proofs.Link.Moves
import Mathlib.Data.List.Sort

/-!
An account of the pictures that go over a link. Whatever the order of moves, no picture is lost from the account, the
viewer takes what it takes in the order of rendering, and the picture that was rendered last is never thrown away.
-/

namespace ChipEight

/-! ## Numbered pictures -/

/-- Entries that each bear the number of a picture, in the order of the numbers. -/
structure Numbered (pictures : List Frame) (entries : List (Frame × Nat)) : Prop where
  sorted : entries.Pairwise (·.2 < ·.2)
  getElem? : ∀ e ∈ entries, pictures[e.2]? = some e.1

namespace Numbered

variable {pictures : List Frame} {entries : List (Frame × Nat)}

theorem nil : Numbered pictures [] := ⟨.nil, by simp⟩

theorem grow (h : Numbered pictures entries) (f : Frame) : Numbered (pictures ++ [f]) entries where
  sorted := h.sorted
  getElem? e he := by
    obtain ⟨hlt, _⟩ := List.getElem?_eq_some_iff.mp (h.getElem? e he)
    rw [List.getElem?_append_left hlt]
    exact h.getElem? e he

theorem snoc {f : Frame} {n : Nat} (h : Numbered pictures entries) (hn : ∀ e ∈ entries, e.2 < n)
    (hf : pictures[n]? = some f) : Numbered pictures (entries ++ [(f, n)]) where
  sorted := by
    rw [List.pairwise_append]
    refine ⟨h.sorted, List.pairwise_singleton _ _, ?_⟩
    intro e he e' he'
    rw [List.mem_singleton.mp he']
    exact hn e he
  getElem? e he := by
    rcases List.mem_append.mp he with he | he
    · exact h.getElem? e he
    · rw [List.mem_singleton.mp he]
      exact hf

theorem lt_length (h : Numbered pictures entries) {e : Frame × Nat} (he : e ∈ entries) : e.2 < pictures.length :=
  (List.getElem?_eq_some_iff.mp (h.getElem? e he)).1

theorem getLast?_eq (h : Numbered pictures entries) {e : Frame × Nat} (he : e ∈ entries)
    (hmax : ∀ e' ∈ entries, e'.2 ≤ e.2) : entries.getLast? = some e := by
  rcases List.eq_nil_or_concat entries with rfl | ⟨init, last, rfl⟩
  · cases he
  · have hs := h.sorted
    rw [List.concat_eq_append] at he hmax hs ⊢
    rw [List.getLast?_append_of_ne_nil _ (by simp)]
    rcases List.mem_append.mp he with hi | hl
    · have hlt := (List.pairwise_append.mp hs).2.2 e hi last (by simp)
      have hle := hmax last (by simp)
      omega
    · simp [List.mem_singleton.mp hl]

theorem sublist (h : Numbered pictures entries) : entries.Sublist pictures.zipIdx := by
  have hz : pictures.zipIdx.Pairwise (·.2 < ·.2) := by
    rw [← List.pairwise_map (f := Prod.snd) (R := (· < ·)), List.zipIdx_map_snd]
    exact List.pairwise_lt_range'
  have hanti : Std.Antisymm fun e e' : Frame × Nat => e.2 < e'.2 := ⟨fun _ _ h h' => (Nat.lt_asymm h h').elim⟩
  have hnodup : entries.Nodup := h.sorted.imp fun hlt he => by rw [he] at hlt; exact Nat.lt_irrefl _ hlt
  refine List.sublist_of_subperm_of_pairwise (List.subperm_of_subset hnodup ?_) h.sorted hz
  intro e he
  exact List.mem_zipIdx_iff_getElem?.mpr (h.getElem? e he)

end Numbered

/-! ## The account -/

/-- What became of the pictures that were rendered: how many were put on the link, which of them the viewer took and
which were thrown away. A picture's number is its place among those rendered. -/
structure Ledger where
  rendered : List Frame := []
  sent : Nat := 0
  taken : List (Frame × Nat) := []
  evicted : List (Frame × Nat) := []
  /-- How many had been thrown away when the last render began. -/
  evictedBefore : Nat := 0

namespace Ledger

def posted (g : Ledger) : Nat := g.sent - 1

def produce (g : Ledger) (w : Window) : ProducerMove → Ledger
  | .render =>
      if w.IsFree then { g with rendered := g.rendered ++ [w.frame], evictedBefore := g.evicted.length } else g
  | .advance =>
      match w.link.phase, w.link.slot with
      | .sending _, none => { g with sent := g.sent + 1 }
      | .evicting _, some f => { g with evicted := g.evicted ++ [(f, g.posted)] }
      | _, _ => g
  | _ => g

theorem taken_produce (g : Ledger) (w : Window) (m : ProducerMove) : (g.produce w m).taken = g.taken := by
  cases m with
  | render => simp only [produce]; split <;> rfl
  | advance => simp only [produce]; split <;> rfl
  | _ => rfl

theorem produce_of_hungUp (g : Ledger) {w : Window} (hh : w.link.hungUp = true) (hp : w.link.phase = .idle)
    (m : ProducerMove) : g.produce w m = g := by
  cases m with
  | render => exact if_neg fun hf => by rw [hf.2] at hh; cases hh
  | advance => simp [produce, hp]
  | _ => rfl

def take (g : Ledger) (l : Link) : Ledger :=
  match l.slot with
  | some f => { g with taken := g.taken ++ [(f, g.posted)] }
  | none => g

theorem take_of_none {g : Ledger} {l : Link} (hs : l.slot = none) : g.take l = g := by
  simp only [take, hs]

theorem take_of_some {g : Ledger} {l : Link} {f : Frame} (hs : l.slot = some f) :
    g.take l = { g with taken := g.taken ++ [(f, g.posted)] } := by
  simp only [take, hs]

def view (g : Ledger) (l : Link) : ViewerMove → Ledger
  | .take => if l.isFinished then g else g.take l
  | .finish _ => g

/-- How an account stands with its link at every moment. -/
structure Balanced (g : Ledger) (l : Link) : Prop where
  /-- Only a picture that is being rendered has not been put on the link yet. -/
  rendered_eq : g.rendered.length = g.sent + l.phase.frame?.toList.length
  sent_eq : g.sent = g.taken.length + g.evicted.length + l.slot.toList.length
  dropped_eq : l.dropped = g.evicted.length
  taken : Numbered g.rendered g.taken
  evicted : Numbered g.rendered g.evicted
  /-- What is on the link is newer than all that was there before. -/
  older : ∀ e ∈ g.taken ++ g.evicted, e.2 + l.slot.toList.length < g.sent
  onLink : ∀ f ∈ l.slot, g.rendered[g.posted]? = some f
  inHand : ∀ f ∈ l.phase.frame?, g.rendered[g.sent]? = some f
  /-- A picture is thrown away only for a newer one. -/
  evicted_lt : ∀ e ∈ g.evicted, e.2 + 1 < g.rendered.length
  /-- Between two renders the newest picture is on the link or with the viewer. -/
  newest : l.phase = .idle → l.slot = none → ∀ f ∈ g.rendered[g.posted]?, (f, g.posted) ∈ g.taken
  /-- While a render finds a frame on the link, it has thrown none away yet. -/
  fresh : l.phase ≠ .idle → l.slot ≠ none → g.evicted.length = g.evictedBefore
  before_le : g.evictedBefore ≤ g.evicted.length
  le_before : g.evicted.length ≤ g.evictedBefore + 1

namespace Balanced

variable {g : Ledger} {l : Link} {f old : Frame}

theorem start : Balanced {} {} := by
  constructor <;> simp [Numbered.nil, Phase.frame?]

theorem offer (h : g.Balanced l) (hp : l.phase = .idle) (f : Frame) :
    Balanced { g with rendered := g.rendered ++ [f], evictedBefore := g.evicted.length } (l.offer f) where
  rendered_eq := by simpa [Link.offer, Phase.frame?, hp] using h.rendered_eq
  sent_eq := h.sent_eq
  dropped_eq := h.dropped_eq
  taken := h.taken.grow f
  evicted := h.evicted.grow f
  older := h.older
  onLink f' hf' := by
    have hf := h.onLink f' hf'
    obtain ⟨hlt, _⟩ := List.getElem?_eq_some_iff.mp hf
    exact (List.getElem?_append_left hlt).trans hf
  inHand f' hf' := by
    have hl : g.rendered.length = g.sent := by simpa [Phase.frame?, hp] using h.rendered_eq
    have he : f = f' := by simpa [Link.offer, Phase.frame?] using hf'
    simp [← hl, he]
  evicted_lt e he := by
    have hlt := h.evicted.lt_length he
    simpa using hlt
  newest hi := by simp [Link.offer] at hi
  fresh _ _ := rfl
  before_le := Nat.le_refl _
  le_before := Nat.le_succ _

theorem send (h : g.Balanced l) (hp : l.phase = .sending f) (hs : l.slot = none) :
    Balanced { g with sent := g.sent + 1 } { l with slot := some f, phase := .idle } where
  rendered_eq := by simpa [Phase.frame?, hp] using h.rendered_eq
  sent_eq := by simpa [hs] using h.sent_eq
  dropped_eq := h.dropped_eq
  taken := h.taken
  evicted := h.evicted
  older e he := by
    have hlt := h.older e he
    simp only [hs, Option.toList_none, List.length_nil, Nat.add_zero] at hlt
    simpa using hlt
  onLink f' hf' := by
    rw [← Option.mem_some.mp hf']
    exact h.inHand f (by simp [hp, Phase.frame?])
  inHand f' hf' := by simp [Phase.frame?] at hf'
  evicted_lt := h.evicted_lt
  newest _ hs' := by cases hs'
  fresh hi := absurd rfl hi
  before_le := h.before_le
  le_before := h.le_before

/-- The link was full, or the viewer was faster and there is nothing left to throw away: the render goes on. -/
theorem goOn (h : g.Balanced l) {p : Phase} (hl : l.phase.frame? = some f) (hp : p.frame? = some f) :
    Balanced g { l with phase := p } where
  rendered_eq := by simpa [hl, hp] using h.rendered_eq
  sent_eq := h.sent_eq
  dropped_eq := h.dropped_eq
  taken := h.taken
  evicted := h.evicted
  older := h.older
  onLink := h.onLink
  inHand f' hf' := h.inHand f' (by simpa [hl, hp] using hf')
  evicted_lt := h.evicted_lt
  newest hi := by cases hi; cases hp
  fresh _ := h.fresh (by intro hi; rw [hi] at hl; cases hl)
  before_le := h.before_le
  le_before := h.le_before

theorem posted_succ (h : g.Balanced l) (hs : l.slot = some f) : g.posted + 1 = g.sent := by
  have := h.sent_eq
  simp only [hs, Option.toList_some, List.length_singleton] at this
  unfold posted
  omega

theorem lt_posted (h : g.Balanced l) (hs : l.slot = some f) {e} (he : e ∈ g.taken ++ g.evicted) : e.2 < g.posted := by
  have hlt := h.older e he
  simp only [hs, Option.toList_some, List.length_singleton] at hlt
  have := h.posted_succ hs
  omega

/-- The stale frame goes, and the picture in hand is newer. -/
theorem evict (h : g.Balanced l) (hp : l.phase = .evicting f) (hs : l.slot = some old) :
    Balanced { g with evicted := g.evicted ++ [(old, g.posted)] }
      { l with slot := none, phase := .sending f, dropped := l.dropped + 1 } := by
  have hsent := h.sent_eq
  have hpost := h.posted_succ hs
  have hlen := h.rendered_eq
  have hfresh := h.fresh (by simp [hp]) (by simp [hs])
  simp only [hs, Option.toList_some, List.length_singleton] at hsent
  simp only [hp, Phase.frame?, Option.toList_some, List.length_singleton] at hlen
  exact {
    rendered_eq := by simpa [Phase.frame?] using hlen
    sent_eq := by simpa [Nat.add_assoc] using hsent
    dropped_eq := by simp [h.dropped_eq]
    taken := h.taken
    evicted := h.evicted.snoc (fun e he => h.lt_posted hs (List.mem_append_right _ he)) (h.onLink old hs)
    older := by
      intro e he
      simp only [← List.append_assoc, List.mem_append, List.mem_singleton] at he
      rcases he with he | rfl
      · have := h.lt_posted hs (List.mem_append.mpr he)
        simp only [Option.toList_none, List.length_nil]
        omega
      · simp only [Option.toList_none, List.length_nil]
        omega
    onLink := by simp
    inHand := fun f' hf' => h.inHand f' (by simpa [Phase.frame?, hp] using hf')
    evicted_lt := by
      intro e he
      rcases List.mem_append.mp he with he | he
      · exact h.evicted_lt e he
      · rw [List.mem_singleton.mp he]
        simp only
        omega
    newest := fun hi => by cases hi
    fresh := fun _ hs' => absurd rfl hs'
    before_le := by
      have := h.before_le
      simp only [List.length_append, List.length_singleton]
      omega
    le_before := by simp [hfresh] }

/-- The viewer takes the frame, at whatever point of a render. -/
theorem take (h : g.Balanced l) : Balanced (g.take l) l.receive.2 := by
  cases hs : l.slot with
  | none => simpa [take_of_none hs, Link.receive, hs] using h
  | some f =>
      have hsent := h.sent_eq
      have hpost := h.posted_succ hs
      simp only [hs, Option.toList_some, List.length_singleton] at hsent
      rw [take_of_some hs]
      simp only [Link.receive, hs]
      exact {
        rendered_eq := h.rendered_eq
        sent_eq := by
          simp only [List.length_append, List.length_singleton, Option.toList_none, List.length_nil]
          omega
        dropped_eq := h.dropped_eq
        taken := h.taken.snoc (fun e he => h.lt_posted hs (List.mem_append_left _ he)) (h.onLink f hs)
        evicted := h.evicted
        older := by
          intro e he
          simp only [Option.toList_none, List.length_nil]
          rcases List.mem_append.mp he with he | he
          · rcases List.mem_append.mp he with he | he
            · have := h.lt_posted hs (List.mem_append_left _ he)
              omega
            · rw [List.mem_singleton.mp he]
              simp only
              omega
          · have := h.lt_posted hs (List.mem_append_right _ he)
            omega
        onLink := by simp
        inHand := h.inHand
        evicted_lt := h.evicted_lt
        newest := by
          intro _ _ f' hf'
          have hf : f = f' := Option.some.inj ((h.onLink f hs).symm.trans hf')
          rw [hf]
          exact List.mem_append_right _ (List.mem_singleton.mpr rfl)
        fresh := fun _ hs' => absurd rfl hs'
        before_le := h.before_le
        le_before := h.le_before }

theorem of_eq {l' : Link} (h : g.Balanced l) (hs : l'.slot = l.slot) (hp : l'.phase = l.phase)
    (hd : l'.dropped = l.dropped) : g.Balanced l' := by
  cases l; cases l'
  simp only at hs hp hd
  subst hs hp hd
  exact ⟨h.rendered_eq, h.sent_eq, h.dropped_eq, h.taken, h.evicted, h.older, h.onLink, h.inHand, h.evicted_lt,
    h.newest, h.fresh, h.before_le, h.le_before⟩

theorem advance {w : Window} (h : g.Balanced w.link) : Balanced (g.produce w .advance) w.link.advance.2 := by
  cases hp : w.link.phase with
  | idle => simpa [Ledger.produce, Link.advance, hp] using h
  | sending f =>
      cases hs : w.link.slot with
      | none => simpa [Ledger.produce, Link.advance, hp, hs] using h.send hp hs
      | some old => simpa [Ledger.produce, Link.advance, hp, hs] using h.goOn (f := f) (by rw [hp]; rfl) rfl
  | evicting f =>
      cases hs : w.link.slot with
      | none => simpa [Ledger.produce, Link.advance, hp, hs] using h.goOn (f := f) (by rw [hp]; rfl) rfl
      | some old => simpa [Ledger.produce, Link.advance, hp, hs] using h.evict hp hs

theorem produce {w : Window} (h : g.Balanced w.link) (m : ProducerMove) :
    Balanced (g.produce w m) (w.produce m).link := by
  cases m with
  | toggle x y => simp only [Ledger.produce, Window.produce]; split <;> exact h
  | clear => simp only [Ledger.produce, Window.produce]; split <;> exact h
  | render =>
      simp only [Ledger.produce, Window.produce]
      split
      · rename_i hf
        simpa [Window.beginRender, hf.2] using h.offer hf.1 w.frame
      · exact h
  | advance => exact h.advance
  | hangUp => simp only [Ledger.produce, Window.produce]; split <;> exact h.of_eq rfl rfl rfl

theorem view (h : g.Balanced l) (m : ViewerMove) : Balanced (g.view l m) (l.view m) := by
  cases m with
  | take => simp only [Ledger.view, Link.view]; split; exacts [h, h.take]
  | finish f => exact h.of_eq rfl rfl rfl

end Balanced

end Ledger

/-! ## Runs of many moves -/

structure Traffic where
  window : Window := {}
  ledger : Ledger := {}

namespace Traffic

def move (t : Traffic) (m : Move) : Traffic where
  window := t.window.move m
  ledger := match m with
    | .producer m => t.ledger.produce t.window m
    | .viewer m => t.ledger.view t.window.link m

def run (t : Traffic) (moves : List Move) : Traffic := moves.foldl move t

theorem run_append (t : Traffic) (before after : List Move) : t.run (before ++ after) = (t.run before).run after :=
  List.foldl_append

theorem balanced_move {t : Traffic} (h : t.ledger.Balanced t.window.link) (m : Move) :
    (t.move m).ledger.Balanced (t.move m).window.link := by
  cases m with
  | producer m => exact h.produce m
  | viewer m => exact h.view m

theorem balanced_run {t : Traffic} (h : t.ledger.Balanced t.window.link) (moves : List Move) :
    (t.run moves).ledger.Balanced (t.run moves).window.link := by
  induction moves generalizing t with
  | nil => exact h
  | cons m moves ih => exact ih (balanced_move h m)

theorem rendered_move (t : Traffic) (m : Move) : t.ledger.rendered <+: (t.move m).ledger.rendered := by
  cases m with
  | producer m =>
      cases m with
      | render =>
          simp only [move, Ledger.produce]
          split
          · exact List.prefix_append _ _
          · exact List.prefix_rfl
      | advance => simp only [move, Ledger.produce]; split <;> exact List.prefix_rfl
      | _ => exact List.prefix_rfl
  | viewer m =>
      cases m with
      | take =>
          simp only [move, Ledger.view, Ledger.take]
          split
          · exact List.prefix_rfl
          · split <;> exact List.prefix_rfl
      | finish f => exact List.prefix_rfl

theorem rendered_run (t : Traffic) (moves : List Move) : t.ledger.rendered <+: (t.run moves).ledger.rendered := by
  induction moves generalizing t with
  | nil => exact List.prefix_rfl
  | cons m moves ih => exact (t.rendered_move m).trans (ih (t.move m))

theorem rendered_of_render {t : Traffic} (h : t.window.IsFree) (moves : List Move) :
    (t.run (.producer .render :: moves)).ledger.rendered[t.ledger.rendered.length]? = some t.window.frame := by
  have hr : (t.move (.producer .render)).ledger.rendered = t.ledger.rendered ++ [t.window.frame] := by
    simp only [move, Ledger.produce]
    rw [if_pos h]
  obtain ⟨later, hl⟩ := (t.move (.producer .render)).rendered_run moves
  have hc : t.run (.producer .render :: moves) = (t.move (.producer .render)).run moves := rfl
  rw [hc, ← hl, hr]
  simp

/-- The link keeps the latest picture, whoever moves when. It never holds two frames. The viewer takes what it takes
in the order of rendering, each picture once and as it was when its render began. Every picture put on the link was
taken, thrown away, or is still there. When a render has returned, its picture is on the link or with the viewer: only
older ones are thrown away, one at most in each render. -/
theorem keeps_latest (moves : List Move) :
    let t := run {} moves
    t.window.link.slot.toList.length ≤ 1 ∧
    t.ledger.taken.Sublist t.ledger.rendered.zipIdx ∧
    (∀ before after, moves = before ++ .producer .render :: after →
      let s := run {} before
      s.window.IsFree → t.ledger.rendered[s.ledger.rendered.length]? = some s.window.frame) ∧
    t.ledger.sent = t.ledger.taken.length + t.window.link.dropped + t.window.link.slot.toList.length ∧
    (∀ f ∈ t.window.link.slot, t.ledger.rendered[t.ledger.sent - 1]? = some f) ∧
    (t.window.link.phase = .idle → t.ledger.sent = t.ledger.rendered.length ∧ ∀ f ∈ t.ledger.rendered.getLast?,
      t.window.link.slot = some f ∨ (f, t.ledger.rendered.length - 1) ∈ t.ledger.taken) ∧
    (t.window.link.dropped = t.ledger.evicted.length ∧ ∀ e ∈ t.ledger.evicted, e.2 + 1 < t.ledger.rendered.length) ∧
    t.ledger.evictedBefore ≤ t.window.link.dropped ∧ t.window.link.dropped ≤ t.ledger.evictedBefore + 1 := by
  intro t
  have h : t.ledger.Balanced t.window.link := balanced_run .start moves
  refine ⟨?_, h.taken.sublist, ?_, ?_, h.onLink, ?_, ⟨h.dropped_eq, h.evicted_lt⟩, ?_, ?_⟩
  · cases t.window.link.slot <;> simp
  · intro before after hm s hfree
    have ht : t = s.run (.producer .render :: after) := by rw [← run_append, ← hm]
    rw [ht]
    exact rendered_of_render hfree after
  · rw [h.dropped_eq]
    exact h.sent_eq
  · intro hp
    have hl : t.ledger.rendered.length = t.ledger.sent := by simpa [Phase.frame?, hp] using h.rendered_eq
    refine ⟨hl.symm, ?_⟩
    intro f hf
    have hf : t.ledger.rendered[t.ledger.posted]? = some f := by
      rw [← Option.mem_def.mp hf, List.getLast?_eq_getElem?, hl]
      rfl
    cases hs : t.window.link.slot with
    | none =>
        refine .inr ?_
        rw [hl]
        exact h.newest hp hs f hf
    | some f' => exact .inl ((h.onLink f' hs).symm.trans hf)
  · rw [h.dropped_eq]
    exact h.before_le
  · rw [h.dropped_eq]
    exact h.le_before

/-- The viewer may take the stale frame just before the producer would throw it away. -/
example : (run {} [.producer .render, .producer .advance, .producer .render, .producer .advance, .viewer .take,
    .producer .advance, .producer .advance]).ledger.taken.map (·.2) = [0] := by decide

end Traffic

end ChipEight
