import Mathlib
import TheiaTaint.Objects.ObjectUuid

namespace TheiaTaint.Objects.FlowHistory

open Foundations.Strings Foundations.Bytes Objects.Uuid Objects.ObjectUuid

structure Call where
  lip : Text
  lport : BitVec 16
  rip : Text
  rport : BitVec 16

def Call.run (ips : IpArray) (c : Call) : Option (CdmUuid × IpArray) :=
  getNetflowUuid ips c.lip c.lport c.rip c.rport

/-- `static uint8_t ips[4] = {0xff,0xff,0xff,0xff};` -/
def initialIps : IpArray := ![0xff, 0xff, 0xff, 0xff]

/-- The static array after a sequence of calls. -/
def runHistory : List Call → IpArray → Option IpArray
  | [], ips => some ips
  | c :: cs, ips => (c.run ips).bind fun r ↦ runHistory cs r.2

theorem count_of_find {c : Char} {s : Text} {pos : ℕ} (h : find c s = some pos) :
    s.count c = (s.drop (pos + 1)).count c + 1 := by
  obtain ⟨hlt, hc, hbefore⟩ := List.findIdx?_eq_some_iff_getElem.1 h
  have hnone : (s.take pos).count c = 0 := by
    rw [List.count_eq_zero]
    intro hmem
    obtain ⟨i, hi, hget⟩ := List.getElem_of_mem hmem
    rw [List.length_take] at hi
    rw [List.getElem_take] at hget
    exact hbefore i (by omega) (by simp [hget])
  have hsplit : s = s.take pos ++ s[pos] :: s.drop (pos + 1) := by simp
  have hchar : s[pos] = c := by simpa using hc
  calc s.count c = (s.take pos ++ s[pos] :: s.drop (pos + 1)).count c := by rw [← hsplit]
    _ = (s.drop (pos + 1)).count c + 1 := by
      rw [List.count_append, hnone, hchar, List.count_cons_self, Nat.zero_add]

theorem count_of_find_none {c : Char} {s : Text} (h : find c s = none) : s.count c = 0 := by
  rw [List.count_eq_zero]
  intro hmem
  have hall := List.findIdx?_eq_none_iff.1 h c hmem
  simp at hall

theorem getIpArrayLoop_three (s : Text) (ips : IpArray) : getIpArrayLoop s 3 ips = some ips := by
  rw [getIpArrayLoop]
  cases find '.' s <;> rfl

theorem isSome_getIpArrayLoop (n : ℕ) {ctr : ℕ} (hn : ctr + n = 3) (s : Text) (ips ips' : IpArray) :
    (getIpArrayLoop s ctr ips).isSome = (getIpArrayLoop s ctr ips').isSome := by
  induction n generalizing s ctr ips ips' with
  | zero =>
    subst hn
    rw [getIpArrayLoop_three, getIpArrayLoop_three]
    rfl
  | succ n ih =>
    have hctr : ctr < 3 := by omega
    rw [getIpArrayLoop, getIpArrayLoop]
    cases find '.' s with
    | none => rfl
    | some pos =>
      simp only [dif_pos hctr]
      cases stoi (substr s 0 pos) with
      | none => rfl
      | some v =>
        simp only
        split
        · cases stoi (s.drop (pos + 1)) with
          | none => rfl
          | some u => exact ih (by omega) _ _ _
        · exact ih (by omega) _ _ _

/-- Fewer than three dots leave the last entry as it was. -/
theorem getIpArrayLoop_last (n : ℕ) {ctr : ℕ} (hn : ctr + n = 3) {s : Text} {ips r : IpArray}
    (hdots : ctr + s.count '.' < 3) (h : getIpArrayLoop s ctr ips = some r) : r 3 = ips 3 := by
  induction n generalizing s ctr ips with
  | zero => omega
  | succ n ih =>
    have hctr : ctr < 3 := by omega
    rw [getIpArrayLoop] at h
    cases hfind : find '.' s with
    | none =>
      rw [hfind] at h
      rw [← Option.some.inj h]
    | some pos =>
      have hcount := count_of_find hfind
      have hlast : ctr + 1 ≠ 3 := by omega
      simp only [hfind, dif_pos hctr, if_neg hlast] at h
      cases hstoi : stoi (substr s 0 pos) with
      | none => rw [hstoi] at h; cases h
      | some v =>
        rw [hstoi] at h
        have hrest := ih (by omega) (by omega) h
        rwa [Function.update_of_ne (Fin.ne_of_val_ne (by simp; omega))] at hrest

theorem getIpArrayLoop_determined (n : ℕ) {ctr : ℕ} (hn : ctr + n = 3) (hpos : 0 < n) {s : Text}
    {ips ips' : IpArray} (hdots : 3 ≤ ctr + s.count '.') (heq : ∀ i, i.val < ctr → ips i = ips' i) :
    getIpArrayLoop s ctr ips = getIpArrayLoop s ctr ips' := by
  induction n generalizing s ctr ips ips' with
  | zero => exact absurd hpos (lt_irrefl 0)
  | succ n ih =>
    have hctr : ctr < 3 := by omega
    cases hfind : find '.' s with
    | none =>
      have hcount := count_of_find_none hfind
      omega
    | some pos =>
      have hcount := count_of_find hfind
      rw [getIpArrayLoop, getIpArrayLoop]
      simp only [hfind, dif_pos hctr]
      cases stoi (substr s 0 pos) with
      | none => rfl
      | some v =>
        have hbelow : ∀ i : Fin 4, i.val < ctr + 1 →
            Function.update ips ⟨ctr, by omega⟩ (BitVec.ofInt 8 v) i =
              Function.update ips' ⟨ctr, by omega⟩ (BitVec.ofInt 8 v) i := by
          intro i hi
          by_cases hin : i = ⟨ctr, by omega⟩
          · rw [hin, Function.update_self, Function.update_self]
          · have hne : i.val ≠ ctr := fun h ↦ hin (Fin.ext h)
            rw [Function.update_of_ne hin, Function.update_of_ne hin, heq i (by omega)]
        simp only
        split
        · cases stoi (s.drop (pos + 1)) with
          | none => rfl
          | some u =>
            refine congrArg (getIpArrayLoop _ _) (funext fun i ↦ ?_)
            by_cases hin : i = 3
            · rw [hin, Function.update_self, Function.update_self]
            · have hne : i.val ≠ 3 := fun h ↦ hin (Fin.ext h)
              rw [Function.update_of_ne hin, Function.update_of_ne hin, hbelow i (by omega)]
        · exact ih (by omega) (by omega) (by omega) hbelow

def LocalNamed (lip : Text) : Prop :=
  lip = "NA".toList ∨ lip = "LOCAL".toList ∨ contains "X11".toList lip = true

def RemoteNamed (rip : Text) : Prop := rip = "NA".toList ∨ rip = "LOCAL".toList

theorem localBytes_named {lip : Text} (h : LocalNamed lip) :
    ∃ b, ∀ ips, localBytes ips lip = some (b, ips) := by
  by_cases hNA : lip = "NA".toList
  · exact ⟨_, fun ips ↦ by rw [localBytes, if_pos hNA]⟩
  · by_cases hLOCAL : lip = "LOCAL".toList
    · exact ⟨_, fun ips ↦ by rw [localBytes, if_neg hNA, if_pos hLOCAL]⟩
    · have hX11 : contains "X11".toList lip = true := (h.resolve_left hNA).resolve_left hLOCAL
      exact ⟨_, fun ips ↦ by rw [localBytes, if_neg hNA, if_neg hLOCAL, if_pos hX11]⟩

theorem localBytes_unnamed {lip : Text} (h : ¬ LocalNamed lip) (ips : IpArray) :
    localBytes ips lip = (getIpArray ips lip).map fun lips ↦ (lips, lips) := by
  simp only [LocalNamed, not_or] at h
  rw [localBytes, if_neg h.1, if_neg h.2.1, if_neg h.2.2]

theorem remoteBytes_named {rip : Text} (h : RemoteNamed rip) :
    ∃ b, ∀ ips, remoteBytes ips rip = some (b, ips) := by
  by_cases hNA : rip = "NA".toList
  · exact ⟨_, fun ips ↦ by rw [remoteBytes, if_pos hNA]⟩
  · exact ⟨_, fun ips ↦ by rw [remoteBytes, if_neg hNA, if_pos (h.resolve_left hNA)]⟩

theorem remoteBytes_unnamed {rip : Text} (h : ¬ RemoteNamed rip) (ips : IpArray) :
    remoteBytes ips rip = (getIpArray ips rip).map fun rips ↦ (rips, rips) := by
  simp only [RemoteNamed, not_or] at h
  rw [remoteBytes, if_neg h.1, if_neg h.2]

theorem isSome_map_getIpArray {α : Type*} (s : Text) (f : IpArray → α) (ips ips' : IpArray) :
    ((getIpArray ips s).map f).isSome = ((getIpArray ips' s).map f).isSome := by
  rw [Option.isSome_map, Option.isSome_map]
  exact isSome_getIpArrayLoop 3 rfl s ips ips'

theorem isSome_localBytes (lip : Text) (ips ips' : IpArray) :
    (localBytes ips lip).isSome = (localBytes ips' lip).isSome := by
  by_cases h : LocalNamed lip
  · obtain ⟨b, hb⟩ := localBytes_named h
    rw [hb, hb]
    rfl
  · rw [localBytes_unnamed h, localBytes_unnamed h]
    exact isSome_map_getIpArray lip _ ips ips'

theorem isSome_remoteBytes (rip : Text) (ips ips' : IpArray) :
    (remoteBytes ips rip).isSome = (remoteBytes ips' rip).isSome := by
  by_cases h : RemoteNamed rip
  · obtain ⟨b, hb⟩ := remoteBytes_named h
    rw [hb, hb]
    rfl
  · rw [remoteBytes_unnamed h, remoteBytes_unnamed h]
    exact isSome_map_getIpArray rip _ ips ips'

theorem sub_six_lt {i : ℕ} (h : i < 10) : i - 6 < 4 := by
  omega

/-- The sixteen bytes of a flow, given those of its two addresses. -/
def flowBytes (lips : IpArray) (lport : BitVec 16) (rips : IpArray) (rport : BitVec 16) : CdmUuid :=
  fun i ↦
    if h : i.val < 4 then lips ⟨i.val, h⟩
    else if i.val < 6 then leByte lport (i.val - 4)
    else if h : i.val < 10 then rips ⟨i.val - 6, sub_six_lt h⟩
    else if i.val < 12 then leByte rport (i.val - 10)
    else 0

theorem Call.run_eq (c : Call) (ips : IpArray) :
    c.run ips = (localBytes ips c.lip).bind fun l ↦ (remoteBytes l.2 c.rip).map fun r ↦
      (flowBytes l.1 c.lport r.1 c.rport, r.2) := by
  rw [Call.run, getNetflowUuid]
  cases localBytes ips c.lip with
  | none => rfl
  | some l =>
    simp only [Option.bind_eq_bind, Option.bind_some]
    cases remoteBytes l.2 c.rip <;> rfl

theorem Call.run_eq_some {c : Call} {ips : IpArray} {r : CdmUuid × IpArray}
    (h : c.run ips = some r) : ∃ lips ips' rips, localBytes ips c.lip = some (lips, ips') ∧
      remoteBytes ips' c.rip = some (rips, r.2) ∧ r.1 = flowBytes lips c.lport rips c.rport := by
  rw [Call.run_eq] at h
  obtain ⟨l, hl, hr⟩ := Option.bind_eq_some_iff.1 h
  obtain ⟨r', hr', rfl⟩ := Option.map_eq_some_iff.1 hr
  exact ⟨l.1, l.2, r'.1, hl, hr', rfl⟩

theorem Call.isSome_run (c : Call) (ips ips' : IpArray) :
    (c.run ips).isSome = (c.run ips').isSome := by
  have hlocal := isSome_localBytes c.lip ips ips'
  rw [Call.run_eq, Call.run_eq]
  cases hl : localBytes ips c.lip with
  | none =>
    cases hl' : localBytes ips' c.lip with
    | none => rfl
    | some l' =>
      rw [hl, hl'] at hlocal
      cases hlocal
  | some l =>
    cases hl' : localBytes ips' c.lip with
    | none =>
      rw [hl, hl'] at hlocal
      cases hlocal
    | some l' =>
      rw [Option.bind_some, Option.bind_some, Option.isSome_map, Option.isSome_map]
      exact isSome_remoteBytes c.rip l.2 l'.2

/-- A flow on whose addresses no number fails to be read. -/
structure Flow extends Call where
  parses : (toCall.run initialIps).isSome

theorem Flow.exists_run (f : Flow) (ips : IpArray) : ∃ r, f.run ips = some r := by
  rw [← Option.isSome_iff_exists, f.isSome_run ips initialIps]
  exact f.parses

/-- Two sequences of earlier calls do not show in the sixteen bytes. -/
def Call.HistoryFree (c : Call) : Prop :=
  ∀ h h' ips ips', runHistory h initialIps = some ips → runHistory h' initialIps = some ips' →
    ∃ u s s', c.run ips = some (u, s) ∧ c.run ips' = some (u, s')

/-- The octets of dotted quads and both ports stand in the sixteen bytes. -/
structure Call.Shows (c : Call) (u : CdmUuid) : Prop where
  lip : ∀ a₀ a₁ a₂ a₃, c.lip = (Endpoint.ipv4 a₀ a₁ a₂ a₃).text →
    u 0 = a₀ ∧ u 1 = a₁ ∧ u 2 = a₂ ∧ u 3 = a₃
  lport : u 5 ++ u 4 = c.lport
  rip : ∀ a₀ a₁ a₂ a₃, c.rip = (Endpoint.ipv4 a₀ a₁ a₂ a₃).text →
    u 6 = a₀ ∧ u 7 = a₁ ∧ u 8 = a₂ ∧ u 9 = a₃
  rport : u 11 ++ u 10 = c.rport

def Call.Recoverable (c : Call) : Prop :=
  ∀ h ips, runHistory h initialIps = some ips → ∃ r, c.run ips = some r ∧ c.Shows r.1

/-- The first of the two addresses that is no name has three dots, if there is one. -/
def Call.Settled (c : Call) : Prop :=
  (LocalNamed c.lip → RemoteNamed c.rip ∨ 3 ≤ c.rip.count '.') ∧
    (¬ LocalNamed c.lip → 3 ≤ c.lip.count '.')

theorem getIpArray_determined {s : Text} (h : 3 ≤ s.count '.') (ips ips' : IpArray) :
    getIpArray ips s = getIpArray ips' s :=
  getIpArrayLoop_determined 3 rfl (by decide) (by rwa [Nat.zero_add])
    fun i hi ↦ absurd hi (Nat.not_lt_zero _)

theorem getIpArray_last {s : Text} (h : s.count '.' < 3) {ips r : IpArray}
    (hr : getIpArray ips s = some r) : r 3 = ips 3 :=
  getIpArrayLoop_last 3 rfl (by rwa [Nat.zero_add]) hr

theorem Call.Settled.run_fst {c : Call} (h : c.Settled) (ips ips' : IpArray) :
    (c.run ips).map Prod.fst = (c.run ips').map Prod.fst := by
  rw [Call.run_eq, Call.run_eq]
  by_cases hlip : LocalNamed c.lip
  · obtain ⟨b, hb⟩ := localBytes_named hlip
    rw [hb, hb, Option.bind_some, Option.bind_some]
    by_cases hrip : RemoteNamed c.rip
    · obtain ⟨b', hb'⟩ := remoteBytes_named hrip
      rw [hb', hb']
      rfl
    · have hdots := (h.1 hlip).resolve_left hrip
      rw [remoteBytes_unnamed hrip, remoteBytes_unnamed hrip, getIpArray_determined hdots ips ips']
  · rw [localBytes_unnamed hlip, localBytes_unnamed hlip, getIpArray_determined (h.2 hlip) ips ips']

theorem Flow.historyFree (f : Flow) (h : f.Settled) : f.HistoryFree := by
  intro _ _ ips ips' _ _
  obtain ⟨⟨u, s⟩, hr⟩ := f.exists_run ips
  obtain ⟨⟨u', s'⟩, hr'⟩ := f.exists_run ips'
  have hsame := h.run_fst ips ips'
  rw [hr, hr', Option.map_some, Option.map_some, Option.some.injEq] at hsame
  simp only at hsame
  exact ⟨u, s, s', hr, hsame ▸ hr'⟩

/-- A flow that leaves zeros in the static array. -/
def zeroCall : Call := ⟨(Endpoint.ipv4 0 0 0 0).text, 0, Endpoint.NA.text, 0⟩

theorem runHistory_zero : runHistory [zeroCall] initialIps = some ![0, 0, 0, 0] := by
  have hlocal : localBytes initialIps zeroCall.lip = some (![0, 0, 0, 0], ![0, 0, 0, 0]) := by
    rw [zeroCall, localBytes, if_neg (text_ipv4_ne_NA 0 0 0 0), if_neg (text_ipv4_ne_LOCAL 0 0 0 0),
      contains_text_ipv4, getIpArray_ipv4]
    rfl
  rw [runHistory, Call.run_eq, hlocal]
  rfl

/-- Bytes that still hold the last entry tell the empty history from one with zeros. -/
theorem Call.HistoryFree.not_stale {c : Call} (h : c.HistoryFree) (k : Fin 16)
    (hstale : ∀ ips u s, c.run ips = some (u, s) → u k = ips 3) : False := by
  obtain ⟨u, s, s', hr, hr'⟩ := h [] [zeroCall] _ _ rfl runHistory_zero
  have hfull := hstale _ _ _ hr
  have hzero := hstale _ _ _ hr'
  rw [hfull] at hzero
  exact absurd hzero (by decide)

theorem Call.HistoryFree.settled {c : Call} (h : c.HistoryFree) : c.Settled := by
  refine ⟨fun hlip ↦ ?_, fun hlip ↦ ?_⟩
  · by_contra hnot
    obtain ⟨hrip, hdots⟩ := not_or.1 hnot
    obtain ⟨b, hb⟩ := localBytes_named hlip
    refine h.not_stale 9 fun ips u s hr ↦ ?_
    obtain ⟨lips, ips', rips, hl, hrb, rfl⟩ := Call.run_eq_some hr
    rw [hb, Option.some.injEq, Prod.mk.injEq] at hl
    obtain ⟨-, rfl⟩ := hl
    rw [remoteBytes_unnamed hrip] at hrb
    obtain ⟨r, hget, hpair⟩ := Option.map_eq_some_iff.1 hrb
    obtain ⟨rfl, -⟩ := Prod.mk.inj hpair
    exact getIpArray_last (not_le.1 hdots) hget
  · by_contra hdots
    refine h.not_stale 3 fun ips u s hr ↦ ?_
    obtain ⟨lips, ips', rips, hl, -, rfl⟩ := Call.run_eq_some hr
    rw [localBytes_unnamed hlip] at hl
    obtain ⟨l, hget, hpair⟩ := Option.map_eq_some_iff.1 hl
    obtain ⟨rfl, -⟩ := Prod.mk.inj hpair
    exact getIpArray_last (not_le.1 hdots) hget

theorem leByte_pair (x : BitVec 16) : leByte x 1 ++ leByte x 0 = x := by
  refine eq_of_leByte (m := 2) rfl fun k hk ↦ ?_
  interval_cases k
  · rw [leByte_append_low _ _ (by decide), leByte_byte]
  · rw [leByte_append_high (k := 1) (l := 0) _ _ rfl, leByte_byte]

theorem Flow.recoverable (f : Flow) : f.Recoverable := by
  intro _ ips _
  obtain ⟨r, hr⟩ := f.exists_run ips
  obtain ⟨lips, ips', rips, hl, hrb, hu⟩ := Call.run_eq_some hr
  refine ⟨r, hr, hu ▸ ⟨fun a₀ a₁ a₂ a₃ hquad ↦ ?_, leByte_pair f.lport, fun a₀ a₁ a₂ a₃ hquad ↦ ?_,
    leByte_pair f.rport⟩⟩
  · obtain ⟨_, htext⟩ := localBytes_text ips (.ipv4 a₀ a₁ a₂ a₃)
    rw [hquad, htext, Endpoint.bytes_ipv4, Option.some.injEq, Prod.mk.injEq] at hl
    obtain ⟨rfl, -⟩ := hl
    exact ⟨rfl, rfl, rfl, rfl⟩
  · obtain ⟨_, htext⟩ := remoteBytes_text ips' (.ipv4 a₀ a₁ a₂ a₃)
    rw [hquad, htext, Endpoint.bytes_ipv4, Option.some.injEq, Prod.mk.injEq] at hrb
    obtain ⟨rfl, -⟩ := hrb
    exact ⟨rfl, rfl, rfl, rfl⟩

/-- Octets and ports can always be recovered. Earlier flows show exactly when the first
address that is no name has fewer than three dots. -/
theorem Flow.history_free_iff (f : Flow) :
    (f.HistoryFree ∧ f.Recoverable ↔ f.Settled) ∧ f.Recoverable := by
  refine ⟨⟨fun h ↦ h.1.settled, fun h ↦ ⟨f.historyFree h, f.recoverable⟩⟩, f.recoverable⟩

/-- A flow from an X server to a Unix path. -/
def pathCall : Call := ⟨"X11".toList, 0, "/run/bus".toList, 0⟩

theorem path_depends_on_history :
    ¬ ∀ f : Flow, f.HistoryFree ∧ f.Recoverable := by
  intro h
  have hparses : (pathCall.run initialIps).isSome := by
    have hremote : remoteBytes initialIps pathCall.rip = some (initialIps, initialIps) := by
      rw [pathCall, remoteBytes, if_neg (by decide), if_neg (by decide), getIpArray, getIpArrayLoop,
        find_eq_none (by decide)]
      rfl
    have hlocal : localBytes initialIps pathCall.lip =
        some (![0xfd, 0xff, 0xff, 0xff], initialIps) := by
      decide
    rw [Call.run_eq, hlocal, Option.bind_some, hremote]
    rfl
  have hsettled := (h ⟨pathCall, hparses⟩).1.settled
  have hX11 : LocalNamed pathCall.lip := .inr (.inr (by decide))
  have hremote := hsettled.1 hX11
  exact absurd hremote (by simp only [RemoteNamed]; decide)

end TheiaTaint.Objects.FlowHistory
