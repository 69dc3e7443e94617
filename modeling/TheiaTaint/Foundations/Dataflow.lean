import Mathlib
import TheiaTaint.Foundations.Assign

namespace TheiaTaint.Foundations.Dataflow

open History Assign

variable {C A V : Type*}

/-- What a step does to labelled cells: the cells a cell takes its labels from,
and the labels that the step puts there itself. -/
structure Flow (C A : Type*) where
  feeds : C → C → Prop
  fresh : C → Set A

def Flow.apply (F : Flow C A) (m : C → Set A) (c : C) : Set A :=
  {a | a ∈ F.fresh c ∨ ∃ b, F.feeds b c ∧ a ∈ m b}

def labels (Fs : List (Flow C A)) (m : C → Set A) : C → Set A :=
  Fs.foldl (fun m F ↦ F.apply m) m

/-- What a cell holds before the steps goes into what another holds after them. -/
inductive Path : List (C → C → Prop) → C → C → Prop
  | nil (c : C) : Path [] c c
  | cons {R : C → C → Prop} {Rs : List (C → C → Prop)} {b c d : C} :
      R b c → Path Rs c d → Path (R :: Rs) b d

/-- Some step puts the label at a cell from which the later steps lead on. -/
def Introduced (Fs : List (Flow C A)) (a : A) (d : C) : Prop :=
  ∃ pre F post c, Fs = pre ++ F :: post ∧ a ∈ F.fresh c ∧ Path (post.map Flow.feeds) c d

section Path

variable {R : C → C → Prop} {Rs Ss : List (C → C → Prop)} {F : Flow C A} {Fs Gs : List (Flow C A)}
  {a : A} {b d : C}

theorem path_nil_iff : Path [] b d ↔ b = d := by
  constructor
  · intro h
    cases h
    rfl
  · intro h
    exact h ▸ .nil b

theorem path_cons_iff : Path (R :: Rs) b d ↔ ∃ c, R b c ∧ Path Rs c d := by
  constructor
  · intro h
    cases h with
    | cons hR hRs => exact ⟨_, hR, hRs⟩
  · intro h
    obtain ⟨c, hR, hRs⟩ := h
    exact .cons hR hRs

theorem not_introduced_nil : ¬ Introduced ([] : List (Flow C A)) a d := by
  intro h
  obtain ⟨pre, F, post, c, hFs, -⟩ := h
  exact List.cons_ne_nil F post (List.append_eq_nil_iff.1 hFs.symm).2

theorem introduced_cons_iff :
    Introduced (F :: Fs) a d ↔
      (∃ c, a ∈ F.fresh c ∧ Path (Fs.map Flow.feeds) c d) ∨ Introduced Fs a d := by
  constructor
  · intro h
    obtain ⟨pre, G, post, c, hFs, ha, hpath⟩ := h
    cases pre with
    | nil =>
      obtain ⟨rfl, rfl⟩ := List.cons.inj hFs
      exact .inl ⟨c, ha, hpath⟩
    | cons F' pre =>
      obtain ⟨rfl, rfl⟩ := List.cons.inj hFs
      exact .inr ⟨pre, G, post, c, rfl, ha, hpath⟩
  · intro h
    rcases h with ⟨c, ha, hpath⟩ | ⟨pre, G, post, c, rfl, ha, hpath⟩
    · exact ⟨[], F, Fs, c, rfl, ha, hpath⟩
    · exact ⟨F :: pre, G, post, c, rfl, ha, hpath⟩

/-- After the steps a cell carries exactly the labels that they lead to it. -/
theorem mem_labels_iff (m : C → Set A) :
    a ∈ labels Fs m d ↔
      Introduced Fs a d ∨ ∃ c, a ∈ m c ∧ Path (Fs.map Flow.feeds) c d := by
  induction Fs generalizing m with
  | nil => simp only [labels, List.foldl_nil, not_introduced_nil, List.map_nil, path_nil_iff,
      false_or, exists_eq_right]
  | cons F Fs ih =>
    have hstep : labels (F :: Fs) m = labels Fs (F.apply m) := rfl
    rw [hstep, ih, introduced_cons_iff]
    constructor
    · intro h
      rcases h with h | ⟨c, ha | ⟨b, hF, ha⟩, hpath⟩
      · exact .inl (.inr h)
      · exact .inl (.inl ⟨c, ha, hpath⟩)
      · exact .inr ⟨b, ha, .cons hF hpath⟩
    · intro h
      rcases h with (⟨c, ha, hpath⟩ | h) | ⟨b, ha, hpath⟩
      · exact .inr ⟨c, .inl ha, hpath⟩
      · exact .inl h
      · obtain ⟨c, hF, hFs⟩ := path_cons_iff.1 hpath
        exact .inr ⟨c, .inr ⟨b, hF, ha⟩, hFs⟩

end Path

/-- A step that only moves labels. -/
def moving (R : C → C → Prop) : Flow C A := ⟨R, fun _ ↦ ∅⟩

theorem mem_apply_moving_iff {R : C → C → Prop} {m : C → Set A} {a : A} {d : C} :
    a ∈ (moving R).apply m d ↔ ∃ b, R b d ∧ a ∈ m b := by
  simp only [Flow.apply, moving, Set.mem_empty_iff_false, false_or, Set.mem_ofPred_eq]

theorem apply_moving_path (Rs : List (C → C → Prop)) (m : C → Set A) :
    (moving (Path Rs)).apply m = labels (Rs.map moving) m := by
  have hnone : ∀ a d, ¬ Introduced (Rs.map (moving (A := A))) a d := by
    intro a d h
    obtain ⟨pre, F, post, c, hFs, ha, -⟩ := h
    have hmem : F ∈ Rs.map moving := hFs ▸ by simp
    obtain ⟨R, -, rfl⟩ := List.mem_map.1 hmem
    exact ha
  have hfeeds : (Rs.map (moving (A := A))).map Flow.feeds = Rs := by
    rw [List.map_map]
    exact List.map_id Rs
  funext d
  ext a
  rw [mem_apply_moving_iff, mem_labels_iff, or_iff_right (hnone a d), hfeeds]
  exact exists_congr fun c ↦ and_comm

section Blocks

variable {L S T : Type*} [DecidableEq C]

/-- The places that a value is joined from. -/
def reads : Expr L → List L
  | .bot => []
  | .place l => [l]
  | .sup a b => reads a ++ reads b

/-- The last assignment to a cell decides what it takes; a cell without one
keeps what it has. -/
def blockFeeds (cell : L → C) (blk : Block L) (b c : C) : Prop :=
  match lastWhere (fun l ↦ decide (cell l = c)) blk with
  | none => b = c
  | some e => ∃ l ∈ reads e, cell l = b

def blocksFeed (cell : L → C) (bs : List (Block L)) : C → C → Prop :=
  Path (bs.map (blockFeeds cell))

/-- How a joinable tag holds labels. -/
structure Holds [Max T] [Bot T] (holds : A → T → Prop) : Prop where
  bot : ∀ a, ¬ holds a ⊥
  sup : ∀ a t u, holds a (t ⊔ u) ↔ holds a t ∨ holds a u

/-- The labels that a state keeps behind each cell. -/
def marks (holds : A → T → Prop) (get : S → L → T) (cell : L → C) (s : S) (c : C) : Set A :=
  {a | ∃ l, cell l = c ∧ holds a (get s l)}

theorem lastWhere_map {K W X : Type*} (p : K → Bool) (g : W → X) (ws : List (K × W)) :
    lastWhere p (ws.map fun w ↦ (w.1, g w.2)) = (lastWhere p ws).map g := by
  induction ws using List.reverseRecOn with
  | nil => rfl
  | append_singleton ws w ih =>
    rw [List.map_append, List.map_singleton, lastWhere_concat, lastWhere_concat, ih]
    split <;> rfl

theorem exists_place_of_lastWhere {cell : L → C} {c : C} {blk : Block L} {e : Expr L}
    (h : lastWhere (fun l ↦ decide (cell l = c)) blk = some e) : ∃ l, cell l = c := by
  obtain ⟨w, hw, -⟩ := Option.map_eq_some_iff.1 h
  have hmem := List.mem_of_getLast? hw
  exact ⟨w.1, of_decide_eq_true (List.mem_filter.1 hmem).2⟩

variable [Max T] [Bot T] {holds : A → T → Prop} {get : S → L → T} {set : S → L → T → S}
  {cell : L → C}

theorem holds_eval_iff (hh : Holds holds) (f : L → T) (a : A) (e : Expr L) :
    holds a (e.eval f) ↔ ∃ l ∈ reads e, holds a (f l) := by
  induction e with
  | bot => simp only [Expr.eval, reads, hh.bot, List.not_mem_nil, false_and, exists_false]
  | place l => simp only [Expr.eval, reads, List.mem_singleton, exists_eq_left]
  | sup e e' ihe ihe' =>
    simp only [Expr.eval, reads, hh.sup, ihe, ihe', List.mem_append, or_and_right, exists_or]

omit [DecidableEq C] [Max T] [Bot T] in
theorem mem_marks_iff (hcell : ∀ s l l', cell l = cell l' → get s l = get s l') (s : S) (l : L)
    (a : A) : a ∈ marks holds get cell s (cell l) ↔ holds a (get s l) := by
  constructor
  · intro h
    obtain ⟨l', hl, ha⟩ := h
    exact hcell s l' l hl ▸ ha
  · intro h
    exact ⟨l, rfl, h⟩

theorem marks_assign (h : Aliased get set cell)
    (hcell : ∀ s l l', cell l = cell l' → get s l = get s l') (hh : Holds holds) (blk : Block L)
    (s : S) : marks holds get cell (assign get set blk s) =
      (moving (blockFeeds cell blk)).apply (marks holds get cell s) := by
  have hget (l : L) : get (assign get set blk s) l =
      ((lastWhere (fun k ↦ decide (cell k = cell l)) blk).map (Expr.eval (get s))).getD
        (get s l) := by
    rw [assign, h.get_writeAll, lastWhere_map]
  funext c
  ext a
  rw [mem_apply_moving_iff]
  unfold blockFeeds
  constructor
  · intro ha
    obtain ⟨l, rfl, ha⟩ := ha
    rw [hget] at ha
    cases hw : lastWhere (fun k ↦ decide (cell k = cell l)) blk with
    | none =>
      rw [hw] at ha
      exact ⟨cell l, rfl, l, rfl, ha⟩
    | some e =>
      rw [hw] at ha
      obtain ⟨k, hk, hak⟩ := (holds_eval_iff hh (get s) a e).1 ha
      exact ⟨cell k, ⟨k, hk, rfl⟩, k, rfl, hak⟩
  · intro ha
    obtain ⟨b, hb, hab⟩ := ha
    cases hw : lastWhere (fun k ↦ decide (cell k = c)) blk with
    | none =>
      rw [hw] at hb
      obtain ⟨l, hl, hal⟩ := hab
      obtain rfl : cell l = c := hl.trans hb
      refine ⟨l, rfl, ?_⟩
      rw [hget, hw]
      exact hal
    | some e =>
      rw [hw] at hb
      obtain ⟨k, hk, rfl⟩ := hb
      obtain ⟨l, rfl⟩ := exists_place_of_lastWhere hw
      refine ⟨l, rfl, ?_⟩
      rw [hget, hw]
      exact (holds_eval_iff hh (get s) a e).2 ⟨k, hk, (mem_marks_iff hcell s k a).1 hab⟩

theorem marks_runBlocks (h : Aliased get set cell)
    (hcell : ∀ s l l', cell l = cell l' → get s l = get s l') (hh : Holds holds)
    (bs : List (Block L)) (s : S) : marks holds get cell (runBlocks get set bs s) =
      (moving (blocksFeed cell bs)).apply (marks holds get cell s) := by
  rw [blocksFeed, apply_moving_path]
  induction bs generalizing s with
  | nil => rfl
  | cons blk bs ih =>
    have hrun : runBlocks get set (blk :: bs) s = runBlocks get set bs (assign get set blk s) := rfl
    rw [hrun, ih, marks_assign h hcell hh]
    rfl

/-- The places that a block names are kept apart by their cells. -/
def BlockWithin (U : Set L) (blk : Block L) : Prop := ∀ w ∈ blk, w.1 ∈ U ∧ ∀ l ∈ reads w.2, l ∈ U

end Blocks

section Apart

variable {L : Type*} [DecidableEq C] [DecidableEq L] {cell : L → C} {U : Set L}

theorem lastWhere_congr {K W : Type*} {p q : K → Bool} {ws : List (K × W)}
    (h : ∀ w ∈ ws, p w.1 = q w.1) : lastWhere p ws = lastWhere q ws := by
  rw [lastWhere, lastWhere, List.filter_congr h]

theorem mem_of_lastWhere {K W : Type*} {p : K → Bool} {ws : List (K × W)} {v : W}
    (h : lastWhere p ws = some v) : ∃ w ∈ ws, w.2 = v := by
  obtain ⟨w, hw, rfl⟩ := Option.map_eq_some_iff.1 h
  exact ⟨w, (List.mem_filter.1 (List.mem_of_getLast? hw)).1, rfl⟩

theorem blockFeeds_cell (hU : Set.InjOn cell U) {blk : Block L} (hblk : BlockWithin U blk)
    {b d : L} (hd : d ∈ U) (h : blockFeeds id blk b d) :
    b ∈ U ∧ blockFeeds cell blk (cell b) (cell d) := by
  have hlast : lastWhere (fun l ↦ decide (cell l = cell d)) blk =
      lastWhere (fun l ↦ decide (id l = d)) blk :=
    lastWhere_congr fun w hw ↦ decide_eq_decide.2 (hU.eq_iff (hblk w hw).1 hd)
  unfold blockFeeds at h ⊢
  rw [hlast]
  cases hw : lastWhere (fun l ↦ decide (id l = d)) blk with
  | none =>
    rw [hw] at h
    exact ⟨h ▸ hd, congrArg cell h⟩
  | some e =>
    rw [hw] at h
    obtain ⟨l, hl, rfl⟩ := h
    obtain ⟨w, hmem, rfl⟩ := mem_of_lastWhere hw
    exact ⟨(hblk w hmem).2 l hl, l, hl, rfl⟩

/-- As long as the cells keep the places of the blocks apart, data moves from
cell to cell wherever it moves from place to place. -/
theorem blocksFeed_cell (hU : Set.InjOn cell U) {bs : List (Block L)}
    (hbs : ∀ blk ∈ bs, BlockWithin U blk) {b d : L} (hd : d ∈ U)
    (h : blocksFeed id bs b d) : b ∈ U ∧ blocksFeed cell bs (cell b) (cell d) := by
  induction bs generalizing b with
  | nil =>
    obtain rfl : b = d := path_nil_iff.1 h
    exact ⟨hd, .nil _⟩
  | cons blk bs ih =>
    obtain ⟨c, hfeeds, hpath⟩ := path_cons_iff.1 h
    obtain ⟨hc, hpath'⟩ := ih (fun k hk ↦ hbs k (List.mem_cons_of_mem _ hk)) hpath
    obtain ⟨hb, hfeeds'⟩ := blockFeeds_cell hU (hbs blk List.mem_cons_self) hc hfeeds
    exact ⟨hb, .cons hfeeds' hpath'⟩

end Apart

section Noninterference

variable {P : Type*}

/-- A step of the labels with what it does to the data in two runs. -/
structure DataStep (P C A V : Type*) where
  flow : Flow C A
  left : (P → V) → P → V
  right : (P → V) → P → V

/-- Unless the step puts the label there, what both runs leave in a place of `U` is the same
whenever they agree on the places of `U` that feed it. -/
def DataStep.Respects (cell : P → C) (U : Set P) (a : A) (d : DataStep P C A V) : Prop :=
  ∀ l ∈ U, a ∉ d.flow.fresh (cell l) → ∀ x y,
    (∀ k ∈ U, d.flow.feeds (cell k) (cell l) → x k = y k) → d.left x l = d.right y l

variable {cell : P → C} {U : Set P} {a : A}

/-- Two runs that differ only where the label is put agree on every place
without the label. -/
theorem agree_run {steps : List (DataStep P C A V)} (h : ∀ d ∈ steps, d.Respects cell U a)
    {m : C → Set A} {x y : P → V} (hxy : ∀ l ∈ U, a ∉ m (cell l) → x l = y l) {l : P}
    (hl : l ∈ U) (ha : a ∉ labels (steps.map DataStep.flow) m (cell l)) :
    steps.foldl (fun x d ↦ d.left x) x l = steps.foldl (fun y d ↦ d.right y) y l := by
  induction steps generalizing m x y with
  | nil => exact hxy l hl ha
  | cons d steps ih =>
    refine ih (fun e he ↦ h e (List.mem_cons_of_mem d he)) (m := d.flow.apply m) ?_ ha
    intro k hk hak
    simp only [Flow.apply, Set.mem_ofPred_eq, not_or, not_exists, not_and] at hak
    exact h d List.mem_cons_self k hk hak.1 x y fun j hj hjk ↦ hxy j hj (hak.2 _ hjk)

end Noninterference

end TheiaTaint.Foundations.Dataflow
