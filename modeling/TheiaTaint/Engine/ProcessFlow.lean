import Mathlib
import TheiaTaint.Foundations.Dataflow
import TheiaTaint.Engine.Provenance
import TheiaTaint.Hooks.SourceBuffer

namespace TheiaTaint.Engine.ProcessFlow

open Foundations.History Foundations.Assign Foundations.Dataflow Foundations.Strings
open Foundations.Labels
open Tags.Directory Objects.Uuid Hooks.Source Hooks.Sink Hooks.SourceBuffer Provenance

variable {w : ℕ}

/-- What tells two bytes of a process apart in its tags. -/
inductive TagByte
  | reg (tid : ℕ) (r : Reg) (i : Fin 8)
  | mem (addr : BitVec 32)
deriving DecidableEq

def TagByte.ofCell (tid : ℕ) : Cell → TagByte
  | .reg r i => .reg tid r i
  | .mem addr => .mem addr

/-- The addresses to which the step gives new tags, whatever they held. -/
def overwritten (env : Env) : Step → List AddrInt
  | .source ev =>
    if readsInbound env ev.call then byteRange ev.call.arg1 ev.call.ret else []
  | .clrn addr num => byteRange addr num
  | .handler _ _ => []

/-- A thread's handler moves tags between its registers and memory and leaves
the registers of the other threads alone. -/
def handlerFeeds (tid : ℕ) (h : Handler) (b c : TagByte) : Prop :=
  (∃ b' c', TagByte.ofCell tid b' = b ∧ TagByte.ofCell tid c' = c ∧
    blocksFeed Loc.cell h.program b' c') ∨
  (b = c ∧ ∀ c', TagByte.ofCell tid c' ≠ c)

def feeds (env : Env) : Step → TagByte → TagByte → Prop
  | .handler tid h, b, c => handlerFeeds tid h b c
  | step, b, c => b = c ∧ ∀ a ∈ overwritten env step, TagByte.mem (low32 a) ≠ c

def fresh (env : Env) (s : ToolState w) : Step → TagByte → Set (BitVec w)
  | .source ev, c =>
    {t | t = objectTag s ev.call ∧
      ∃ a ∈ overwritten env (.source ev), TagByte.mem (low32 a) = c}
  | _, _ => ∅

def stepFlow (env : Env) (s : ToolState w) (step : Step) : Flow TagByte (BitVec w) :=
  ⟨feeds env step, fresh env s step⟩

def flows (env : Env) : List Step → ProcessState w → List (Flow TagByte (BitVec w))
  | [], _ => []
  | step :: steps, s => stepFlow env s.tool step :: flows env steps (step.apply env s)

/-- The tags that a process keeps for each byte. -/
def tagsAt (s : ProcessState w) : TagByte → Set (BitVec w)
  | .reg tid r i => {t | t ∈ s.gpr tid r i}
  | .mem addr => {t | t ∈ tagDirGetb s.tool.tagDir (addr.setWidth 64)}

section Tags

theorem getb_congr {T : Type*} [SemilatticeSup T] [OrderBot T] (dir : TagDir T) {a b : AddrInt}
    (h : low32 a = low32 b) : tagDirGetb dir a = tagDirGetb dir b := by
  obtain ⟨ht, hp, ho⟩ := (indices_eq_iff a b).2 h
  simp only [tagDirGetb, ht, hp, ho]

theorem low32_setWidth (addr : BitVec 32) : low32 (addr.setWidth 64) = addr := by
  simp [low32]

theorem holds_mem : Holds fun (t : BitVec w) (tags : Finset (BitVec w)) ↦ t ∈ tags where
  bot t := Finset.notMem_empty t
  sup _ _ _ := Finset.mem_union

theorem get_congr {T : Type*} [SemilatticeSup T] [OrderBot T] (s : TagState T) (l l' : Loc)
    (h : l.cell = l'.cell) : s.get l = s.get l' := by
  cases l with
  | reg r i =>
    cases l' with
    | reg r' i' =>
      obtain ⟨rfl, rfl⟩ := Cell.reg.inj h
      rfl
    | mem addr' => exact Cell.noConfusion h
  | mem addr =>
    cases l' with
    | reg r' i' => exact Cell.noConfusion h
    | mem addr' => exact getb_congr s.tagDir (Cell.mem.inj h)

theorem tagsAt_mem (s : ProcessState w) (a : AddrInt) :
    tagsAt s (.mem (low32 a)) = {t | t ∈ tagDirGetb s.tool.tagDir a} := by
  simp only [tagsAt, getb_congr s.tool.tagDir (low32_setWidth (low32 a))]

def cellTags (s : TagState (Finset (BitVec w))) : Cell → Set (BitVec w) :=
  marks (fun t tags ↦ t ∈ tags) TagState.get Loc.cell s

theorem mem_cellTags_iff (s : TagState (Finset (BitVec w))) (l : Loc) (t : BitVec w) :
    t ∈ cellTags s l.cell ↔ t ∈ s.get l := mem_marks_iff get_congr s l t

theorem cellTags_run (h : Handler) (s : TagState (Finset (BitVec w))) :
    cellTags (h.run s) = (moving (blocksFeed Loc.cell h.program)).apply (cellTags s) := by
  rw [computes_run h]
  exact marks_runBlocks aliased get_congr holds_mem h.program s

theorem tagsAt_ofCell (s : ProcessState w) (tid : ℕ) (c : Cell) :
    tagsAt s (.ofCell tid c) = cellTags (s.tagState tid) c := by
  ext t
  cases c with
  | reg r i => exact (mem_cellTags_iff (s.tagState tid) (.reg r i) t).symm
  | mem addr =>
    have hmem := mem_cellTags_iff (s.tagState tid) (.mem (addr.setWidth 64)) t
    rw [Loc.cell, low32_setWidth] at hmem
    exact hmem.symm

theorem tagsAt_setTagState_of_other (s : ProcessState w) (tid : ℕ)
    (t : TagState (Finset (BitVec w))) {c : TagByte} (hc : ∀ c', TagByte.ofCell tid c' ≠ c) :
    tagsAt (s.setTagState tid t) c = tagsAt s c := by
  cases c with
  | reg tid' r i =>
    have htid : tid' ≠ tid := by
      intro h
      exact hc (.reg r i) (h ▸ rfl)
    simp only [tagsAt, ProcessState.setTagState, Function.update_of_ne htid]
  | mem addr => exact absurd rfl (hc (.mem addr))

theorem tagState_setTagState (s : ProcessState w) (tid : ℕ) (t : TagState (Finset (BitVec w))) :
    (s.setTagState tid t).tagState tid = t := by
  simp only [ProcessState.tagState, ProcessState.setTagState, Function.update_self]

theorem ofCell_injective (tid : ℕ) : Function.Injective (TagByte.ofCell tid) := by
  intro c c' h
  cases c with
  | reg r i =>
    cases c' with
    | reg r' i' =>
      obtain ⟨-, rfl, rfl⟩ := TagByte.reg.inj h
      rfl
    | mem addr' => exact TagByte.noConfusion h
  | mem addr =>
    cases c' with
    | reg r' i' => exact TagByte.noConfusion h
    | mem addr' => exact congrArg Cell.mem (TagByte.mem.inj h)

theorem tagsAt_handler (env : Env) (s : ProcessState w) (tid : ℕ) (h : Handler) :
    tagsAt ((Step.handler tid h).apply env s) = (moving (handlerFeeds tid h)).apply (tagsAt s) := by
  funext c
  ext t
  rw [mem_apply_moving_iff]
  by_cases hc : ∃ c', TagByte.ofCell tid c' = c
  · obtain ⟨c', rfl⟩ := hc
    rw [Step.apply, tagsAt_ofCell, tagState_setTagState, cellTags_run, mem_apply_moving_iff]
    constructor
    · intro ht
      obtain ⟨b, hb, ht⟩ := ht
      exact ⟨.ofCell tid b, .inl ⟨b, c', rfl, rfl, hb⟩, by rwa [tagsAt_ofCell]⟩
    · intro ht
      obtain ⟨b, hb, ht⟩ := ht
      rcases hb with ⟨b', d, rfl, hd, hb⟩ | ⟨-, hother⟩
      · obtain rfl := ofCell_injective tid hd
        exact ⟨b', hb, by rwa [tagsAt_ofCell] at ht⟩
      · exact absurd rfl (hother c')
  · have hother : ∀ c', TagByte.ofCell tid c' ≠ c := not_exists.1 hc
    rw [Step.apply, tagsAt_setTagState_of_other s tid _ hother]
    constructor
    · intro ht
      exact ⟨c, .inr ⟨rfl, hother⟩, ht⟩
    · intro ht
      obtain ⟨b, hb, ht⟩ := ht
      rcases hb with ⟨b', d, -, hd, -⟩ | ⟨rfl, -⟩
      · exact absurd hd (hother d)
      · exact ht

theorem tagsAt_setAll (s : ProcessState w) {tool : ToolState w} {addrs : List AddrInt}
    {tags : Finset (BitVec w)} (hdir : tool.tagDir = setAll addrs tags s.tool.tagDir)
    (c : TagByte) (t : BitVec w) :
    t ∈ tagsAt { s with tool } c ↔ (t ∈ tags ∧ ∃ a ∈ addrs, TagByte.mem (low32 a) = c) ∨
      (t ∈ tagsAt s c ∧ ∀ a ∈ addrs, TagByte.mem (low32 a) ≠ c) := by
  cases c with
  | reg tid r i => simp only [tagsAt, reduceCtorEq, and_false, exists_false, ne_eq,
      not_false_eq_true, implies_true, and_true, false_or]
  | mem addr =>
    have hget : tagDirGetb tool.tagDir (addr.setWidth 64) =
        if ∃ a ∈ addrs, low32 a = addr then tags
        else tagDirGetb s.tool.tagDir (addr.setWidth 64) := by
      rw [hdir, setAll, getb_foldl_setb, low32_setWidth]
    simp only [tagsAt, hget, TagByte.mem.injEq, Set.mem_ofPred_eq, ne_eq]
    split
    · next h =>
      have hno : ¬ ∀ a ∈ addrs, ¬ low32 a = addr := by
        intro hall
        obtain ⟨a, ha, haddr⟩ := h
        exact hall a ha haddr
      simp only [h, hno, and_true, and_false, or_false]
    · next h =>
      have hall : ∀ a ∈ addrs, ¬ low32 a = addr := by
        intro a ha haddr
        exact h ⟨a, ha, haddr⟩
      simp only [h, and_false, false_or, and_iff_left hall]

theorem tagsAt_source (env : Env) (s : ProcessState w) (ev : SourceEvent) :
    tagsAt ((Step.source ev).apply env s) =
      (stepFlow env s.tool (.source ev)).apply (tagsAt s) := by
  have hdir : (ev.apply env s.tool).tagDir =
      setAll (overwritten env (.source ev)) {objectTag s.tool ev.call} s.tool.tagDir := by
    rw [tagDir_apply, sourceWrites, overwritten]
    split
    · rw [writeAll, List.foldl_map]
      rfl
    · rfl
  funext c
  ext t
  rw [Step.apply, tagsAt_setAll s hdir]
  simp only [Flow.apply, stepFlow, fresh, feeds, Finset.mem_singleton, Set.mem_ofPred_eq]
  apply or_congr_right
  constructor
  · intro h
    exact ⟨c, ⟨rfl, h.2⟩, h.1⟩
  · intro h
    obtain ⟨b, ⟨rfl, hc⟩, ht⟩ := h
    exact ⟨ht, hc⟩

theorem tagsAt_clrn (env : Env) (s : ProcessState w) (addr num : BitVec 64) :
    tagsAt ((Step.clrn addr num).apply env s) =
      (stepFlow env s.tool (.clrn addr num)).apply (tagsAt s) := by
  have hdir : (tagmapClrn addr num s.tool).tagDir =
      setAll (byteRange addr num) ∅ s.tool.tagDir := rfl
  funext c
  ext t
  rw [Step.apply, tagsAt_setAll s hdir]
  simp only [Flow.apply, stepFlow, fresh, feeds, overwritten, Finset.notMem_empty, false_and,
    Set.mem_empty_iff_false, false_or, Set.mem_ofPred_eq]
  constructor
  · intro h
    exact ⟨c, ⟨rfl, h.2⟩, h.1⟩
  · intro h
    obtain ⟨b, ⟨rfl, hc⟩, ht⟩ := h
    exact ⟨ht, hc⟩

theorem tagsAt_apply (env : Env) (s : ProcessState w) (step : Step) :
    tagsAt (step.apply env s) = (stepFlow env s.tool step).apply (tagsAt s) := by
  cases step with
  | source ev => exact tagsAt_source env s ev
  | clrn addr num => exact tagsAt_clrn env s addr num
  | handler tid h => exact tagsAt_handler env s tid h

theorem tagsAt_run (env : Env) (steps : List Step) (s : ProcessState w) :
    tagsAt (run env steps s) = labels (flows env steps s) (tagsAt s) := by
  induction steps generalizing s with
  | nil => rfl
  | cons step steps ih =>
    have hrun : run env (step :: steps) s = run env steps (step.apply env s) := rfl
    rw [hrun, ih, tagsAt_apply]
    rfl

end Tags

/-- What the run read with the property gets from the buffer of the read to the byte. -/
def ReadReaches (env : Env) (steps : List Step) (p : List Step → SourceEvent → Prop)
    (c : TagByte) : Prop :=
  ∃ pre ev post a, steps = pre ++ .source ev :: post ∧ p pre ev ∧
    a ∈ overwritten env (.source ev) ∧ Path (post.map (feeds env)) (.mem (low32 a)) c

section Reads

variable {env : Env} {c : TagByte} {p q : List Step → SourceEvent → Prop}

theorem readsInbound_of_mem {ev : SourceEvent} {a : AddrInt}
    (ha : a ∈ overwritten env (.source ev)) : readsInbound env ev.call = true := by
  by_contra hno
  rw [overwritten, if_neg hno] at ha
  exact List.not_mem_nil ha

theorem ReadReaches.mono {steps : List Step} (h : ReadReaches env steps p c)
    (hpq : ∀ pre ev post, steps = pre ++ .source ev :: post → readsInbound env ev.call = true →
      p pre ev → q pre ev) : ReadReaches env steps q c := by
  obtain ⟨pre, ev, post, a, hsteps, hp, ha, hpath⟩ := h
  exact ⟨pre, ev, post, a, hsteps, hpq pre ev post hsteps (readsInbound_of_mem ha) hp, ha, hpath⟩

theorem not_readReaches_nil : ¬ ReadReaches env [] p c := by
  intro h
  obtain ⟨pre, ev, post, a, hsteps, -⟩ := h
  exact List.cons_ne_nil _ post (List.append_eq_nil_iff.1 hsteps.symm).2

theorem readReaches_cons_iff (step : Step) (steps : List Step) :
    ReadReaches env (step :: steps) p c ↔
      (∃ ev a, step = .source ev ∧ p [] ev ∧ a ∈ overwritten env (.source ev) ∧
        Path (steps.map (feeds env)) (.mem (low32 a)) c) ∨
      ReadReaches env steps (fun pre ev ↦ p (step :: pre) ev) c := by
  constructor
  · intro h
    obtain ⟨pre, ev, post, a, hsteps, hp, ha, hpath⟩ := h
    cases pre with
    | nil =>
      obtain ⟨rfl, rfl⟩ := List.cons.inj hsteps
      exact .inl ⟨ev, a, rfl, hp, ha, hpath⟩
    | cons step' pre =>
      obtain ⟨rfl, rfl⟩ := List.cons.inj hsteps
      exact .inr ⟨pre, ev, post, a, rfl, hp, ha, hpath⟩
  · intro h
    rcases h with ⟨ev, a, rfl, hp, ha, hpath⟩ | ⟨pre, ev, post, a, rfl, hp, ha, hpath⟩
    · exact ⟨[], ev, steps, a, rfl, hp, ha, hpath⟩
    · exact ⟨step :: pre, ev, post, a, rfl, hp, ha, hpath⟩

theorem map_feeds_flows (steps : List Step) (s : ProcessState w) :
    (flows env steps s).map Flow.feeds = steps.map (feeds env) := by
  induction steps generalizing s with
  | nil => rfl
  | cons step steps ih =>
    rw [flows, List.map_cons, List.map_cons, ih]
    rfl

theorem introduced_flows_iff (steps : List Step) (s : ProcessState w) (t : BitVec w) :
    Introduced (flows env steps s) t c ↔
      ReadReaches env steps (fun pre ev ↦ t = objectTag (run env pre s).tool ev.call) c := by
  induction steps generalizing s with
  | nil => simp only [flows, not_introduced_nil, not_readReaches_nil]
  | cons step steps ih =>
    rw [flows, introduced_cons_iff, readReaches_cons_iff, ih, map_feeds_flows]
    apply or_congr_left
    constructor
    · intro h
      obtain ⟨d, ht, hpath⟩ := h
      cases step with
      | source ev =>
        obtain ⟨ht, a, ha, rfl⟩ := ht
        exact ⟨ev, a, rfl, ht, ha, hpath⟩
      | clrn addr num => exact absurd ht (Set.notMem_empty t)
      | handler tid h => exact absurd ht (Set.notMem_empty t)
    · intro h
      obtain ⟨ev, a, rfl, ht, ha, hpath⟩ := h
      exact ⟨.mem (low32 a), ⟨ht, a, ha, rfl⟩, hpath⟩

theorem tagsAt_started (start : BitVec 64) :
    tagsAt (ProcessState.started start : ProcessState w) c = ∅ := by
  cases c with
  | reg tid r i => exact Set.eq_empty_of_forall_notMem fun t ht ↦ absurd ht (Finset.notMem_empty t)
  | mem addr => exact Set.eq_empty_of_forall_notMem fun t ht ↦ absurd ht (Finset.notMem_empty t)

theorem tag_iff_readReaches (env : Env) (steps : List Step) (start : BitVec 64) (c : TagByte)
    (t : BitVec w) :
    t ∈ tagsAt (run env steps (ProcessState.started start)) c ↔
      ReadReaches env steps
        (fun pre ev ↦ t = objectTag (run env pre (ProcessState.started start)).tool ev.call) c := by
  rw [tagsAt_run, mem_labels_iff, introduced_flows_iff, or_iff_left]
  intro h
  obtain ⟨b, hb, -⟩ := h
  rw [tagsAt_started] at hb
  exact hb

end Reads

section Objects

variable {env : Env} {s : ProcessState w}

theorem register_apply (step : Step) :
    (step.apply env s).tool.register =
      ((inboundReads env step.sources).map uuidToString).foldl Register.enter s.tool.register := by
  cases step with
  | source ev => exact register_runSources env [ev] s.tool
  | clrn addr num => rfl
  | handler tid h => rfl

theorem register_run (steps : List Step) (s : ProcessState w) :
    (run env steps s).tool.register =
      ((readsOf env steps).map uuidToString).foldl Register.enter s.tool.register := by
  induction steps generalizing s with
  | nil => rfl
  | cons step steps ih =>
    have hrun : run env (step :: steps) s = run env steps (step.apply env s) := rfl
    rw [hrun, ih, register_apply, readsOf_cons, List.map_append, List.foldl_append]

theorem labelOf_enterAll {N : Type*} [DecidableEq N] {r : Register N w} {x : N} {t : BitVec w}
    (h : r.labelOf x = some t) (xs : List N) : (xs.foldl Register.enter r).labelOf x = some t := by
  induction xs generalizing r with
  | nil => exact h
  | cons y xs ih =>
    apply ih
    unfold Register.enter
    split
    · exact h
    · next hy =>
      have hne : x ≠ y := by
        intro hxy
        rw [hxy, hy] at h
        exact Option.some_ne_none t h.symm
      exact (Function.update_of_ne hne _ _).trans h

theorem uuidToTag_run_source {pre post : List Step} {ev : SourceEvent}
    (hread : readsInbound env ev.call = true) :
    (run env (pre ++ .source ev :: post) s).tool.uuidToTag (uuidToString ev.call.object.uuid) =
      some (objectTag (run env pre s).tool ev.call) := by
  have hrun : run env (pre ++ .source ev :: post) s =
      run env post ((Step.source ev).apply env (run env pre s)) := by
    rw [run, List.foldl_append]
    rfl
  have hlabel : ((Step.source ev).apply env (run env pre s)).tool.register.labelOf
      (uuidToString ev.call.object.uuid) = some (objectTag (run env pre s).tool ev.call) :=
    uuidToTag_apply hread
  have hkeep := labelOf_enterAll hlabel ((readsOf env post).map uuidToString)
  rw [← register_run, ← hrun] at hkeep
  exact hkeep

theorem mem_readsOf_source {pre post : List Step} {ev : SourceEvent}
    (hread : readsInbound env ev.call = true) :
    ev.call.object.uuid ∈ readsOf env (pre ++ .source ev :: post) := by
  have hev : ev ∈ (pre ++ .source ev :: post).flatMap Step.sources :=
    List.mem_flatMap.2 ⟨.source ev, by simp, List.mem_singleton_self ev⟩
  exact List.mem_map.2 ⟨ev, List.mem_filter.2 ⟨hev, hread⟩, rfl⟩

theorem card_map_uuidToString (us : List CdmUuid) :
    (us.map uuidToString).toFinset.card = us.toFinset.card := by
  rw [← Finset.card_image_of_injective us.toFinset uuidToString_injective]
  congr 1
  ext x
  simp

/-- A run that reads at most `2 ^ w` different objects names each of them. -/
theorem tagToTagUuid_run_source {pre post : List Step} {ev : SourceEvent} {start : BitVec 64}
    (hread : readsInbound env ev.call = true)
    (hcard : (readsOf env (pre ++ .source ev :: post)).toFinset.card ≤ 2 ^ w) :
    (run env (pre ++ .source ev :: post) (ProcessState.started start : ProcessState w)
      ).tool.tagToTagUuid (objectTag (run env pre (ProcessState.started start)).tool ev.call) =
        some (uuidToString ev.call.object.uuid) := by
  set steps := pre ++ .source ev :: post
  have hone : (run env steps (ProcessState.started start : ProcessState w)).tool.register.OneToOne
      {x | x ∈ (readsOf env steps).map uuidToString} := by
    rw [register_run]
    apply (oneToOne_enterAll_iff _).2
    rwa [card_map_uuidToString]
  obtain ⟨t, hlabel, hname⟩ := hone.name_label _ (List.mem_map_of_mem (mem_readsOf_source hread))
  have hgiven : (run env steps (ProcessState.started start : ProcessState w)).tool.uuidToTag _ =
      some _ := uuidToTag_run_source hread
  obtain rfl := Option.some_inj.1 (hlabel.symm.trans hgiven)
  exact hname

theorem object_iff_readReaches (env : Env) (steps : List Step) (start : BitVec 64)
    (hcard : (readsOf env steps).toFinset.card ≤ 2 ^ w) (c : TagByte) (u : CdmUuid) :
    (∃ t ∈ tagsAt (run env steps (ProcessState.started start : ProcessState w)) c,
      (run env steps (ProcessState.started start)).tool.tagToTagUuid t = some (uuidToString u)) ↔
      ReadReaches env steps (fun _ ev ↦ ev.call.object.uuid = u) c := by
  constructor
  · intro h
    obtain ⟨t, ht, hname⟩ := h
    refine ((tag_iff_readReaches env steps start c t).1 ht).mono ?_
    intro pre ev post hsteps hread htag
    subst hsteps htag
    rw [tagToTagUuid_run_source hread hcard, Option.some_inj] at hname
    exact uuidToString_injective hname
  · intro h
    obtain ⟨pre, ev, post, a, rfl, rfl, ha, hpath⟩ := h
    refine ⟨_, ?_, tagToTagUuid_run_source (readsInbound_of_mem ha) hcard⟩
    exact (tag_iff_readReaches env _ start c _).2 ⟨pre, ev, post, a, rfl, rfl, ha, hpath⟩

end Objects

end TheiaTaint.Engine.ProcessFlow
