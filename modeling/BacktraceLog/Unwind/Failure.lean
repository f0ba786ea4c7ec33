import BacktraceLog.Unwind.Chain

/-!
# How an unwind fails

A failing `xt_retaddr_callee_ex` leaves the outputs alone where the scan
runs back to the start of the code. Where it gives up at a stop with code
left behind it, the outputs are overwritten with the candidate of that
stop; a return close to `pc` without a link register is such a stop, and
nothing behind it is looked at.
-/

namespace BacktraceLog

variable {c : CodeMap} {m : Mem} {pc sp lr : Word} {off : Nat} {r : Callee}

/-! ## Giving up -/

/-- The search gives up at the stop `off`, before the start of the code:
it comes to it, its candidate is no code address, and is NULL or costs the
last retry. -/
structure Blocked (c : CodeMap) (m : Mem) (pc sp lr : Word) (off : Nat)
    (r : Callee) : Prop where
  last : ∃ k, ComesTo c m pc sp lr k off r ∧ (r.pc = 0 ∨ k + 1 = c.maxRetry)
  invalid : xtPcIsValid c r.pc = false
  room : off + 1 < prevTextSize c pc

theorem Blocked.callee_eq {iLr : Word}
    (h : Blocked c m pc sp (usableLr c iLr) off r) (o : Callee) :
    xtRetaddrCalleeEx c m pc sp iLr o = (false, r) := by
  obtain ⟨k, hk, hend⟩ := h.last
  have hgave : searchStops c c.maxRetry
      (stops c m pc sp (usableLr c iLr)) = .gaveUp (off, r) :=
    (Retry.search_gaveUp_iff c.retry_pos).mpr
      ⟨k, hk, h.invalid, hend.imp (fun h0 => decide_eq_true h0) id⟩
  rw [xtRetaddrCalleeEx_search, hgave, calleeResult, if_pos h.room]

/-- **How a call fails**: blocked, or with only `o_fn` reset. -/
theorem callee_failure {iLr : Word} {o : Callee}
    (h : xtRetaddrCalleeEx c m pc sp iLr o = (false, r)) :
    (∃ off, Blocked c m pc sp (usableLr c iLr) off r)
      ∨ r = { o with fn := 0 } := by
  rw [xtRetaddrCalleeEx_search] at h
  cases hs : searchStops c c.maxRetry (stops c m pc sp (usableLr c iLr)) with
  | found x =>
      rw [hs] at h
      cases (Prod.mk.inj h).1
  | gaveUp x =>
      rw [hs] at h
      obtain ⟨-, hr⟩ := Prod.mk.inj h
      by_cases hroom : x.1 + 1 < prevTextSize c pc
      · rw [if_pos hroom] at hr
        subst hr
        obtain ⟨k, hk, hinvalid, hend⟩ :=
          (Retry.search_gaveUp_iff c.retry_pos).mp hs
        exact .inl ⟨x.1, ⟨k, hk, hend.imp of_decide_eq_true id⟩, hinvalid,
          hroom⟩
      · rw [if_neg hroom] at hr
        exact .inr hr.symm
  | ranOut =>
      rw [hs] at h
      exact .inr (Prod.mk.inj h).2.symm

/-- **Failed detection leaves the outputs alone** exactly where the scan
is not blocked. -/
theorem failure_keeps_outputs_iff (c : CodeMap) (m : Mem)
    (iPc iSp iLr : Word) :
    (∀ o r, xtRetaddrCalleeEx c m iPc iSp iLr o = (false, r) →
        r.pc = o.pc ∧ r.sp = o.sp ∧ (r.fn = o.fn ∨ r.fn = 0))
      ↔ ¬ ∃ off r, Blocked c m iPc iSp (usableLr c iLr) off r := by
  constructor
  · rintro h ⟨off, r, hblocked⟩
    -- two prior contents that differ
    have h0 : r.pc = 0 := (h ⟨0, 0, 0⟩ r (hblocked.callee_eq _)).1
    have h1 : r.pc = 1 := (h ⟨1, 0, 0⟩ r (hblocked.callee_eq _)).1
    exact absurd (h0.symm.trans h1) (by decide)
  · intro hnot o r hcall
    rcases callee_failure hcall with ⟨off, hblocked⟩ | rfl
    · exact absurd ⟨off, r, hblocked⟩ hnot
    · exact ⟨rfl, rfl, .inr rfl⟩

/-- A function with an early return: `addi a1, a1, -16`, `s32i.n a0, a1,
12`, `ret.n` and a call, with the return address in the slot. -/
def earlyReturn : Mem where
  code a :=
    if a < 0x40100010 then 0
    else [0x12, 0xc1, 0xf0, 0x09, 0x31, 0x0d, 0xf0, 0x05, 0, 0].getD
      (a - 0x40100010) 0
  stack a := if a = 0x3ffffe0c then 0x40100030 else 0

/-- Behind the call the `ret.n` is five bytes back: NULL is stored, and
the stack pointer with it. -/
theorem failure_overwrites_outputs :
    xtRetaddrCalleeEx (smallMap 0) earlyReturn 0x4010001a 0x3ffffe00 0
        ⟨0x40100020, 0x3ffffd00, 0⟩
      = (false, ⟨0, 0x3ffffe00, 0⟩)
    ∧ (0 : Word) ≠ 0x40100020 ∧ (0x3ffffe00 : Word) ≠ 0x3ffffd00 := by
  decide

/-! ## A return without a link register -/

/-- There is a return at most eight bytes back whose path leads to `pc`,
no usable link register, and behind the return an accepted frame `off`
bytes back with the valid candidate `r`, with nothing but failed matches
nearer than it, fewer than `BACKTRACE_MAX_RETRY`. -/
structure FrameBehindRet (c : CodeMap) (m : Mem) (pc sp iLr : Word)
    (offRet off : Nat) (r : Callee) : Prop where
  no_lr : xtPcIsValid c iLr = false
  near : 2 ≤ offRet ∧ offRet ≤ 8
  ret : isRet m (pc.toNat - offRet) = true
  path : (decode m).Visits (pc.toNat - offRet) pc.toNat
  behind : offRet < off
  frame : ∃ size, FrameAt m (pc.toNat - off) size
  valid : xtPcIsValid c r.pc = true
  nearer : ∀ x ∈ stops c m pc sp 0, x.1 < off → validStop c x = false
  retries : ∃ k, k < c.maxRetry ∧ (stops c m pc sp 0)[k]? = some (off, r)

theorem FrameBehindRet.accepted {iLr : Word} {offRet : Nat}
    (h : FrameBehindRet c m pc sp iLr offRet off r) :
    (off, r) ∈ stops c m pc sp 0 := by
  obtain ⟨k, -, hk⟩ := h.retries
  exact List.mem_of_getElem? hk

/-- The return, or the exception wrapper in its place, is a stop with a
NULL candidate. -/
theorem FrameBehindRet.null_stop {iLr : Word} {offRet : Nat}
    (h : FrameBehindRet c m pc sp iLr offRet off r) :
    ∃ s : Callee, s.pc = 0 ∧ (offRet, s) ∈ stops c m pc sp 0 := by
  have hsize := (mem_stops.mp h.accepted).2.1
  have hbehind := h.behind
  by_cases hhandler : pc.toNat - offRet = c.xtosCWrapperHandler.toNat
  · exact ⟨_, rfl, mem_stops.mpr ⟨h.near.1, by omega, .handler hhandler⟩⟩
  · exact ⟨_, rfl, mem_stops.mpr
      ⟨h.near.1, by omega, .ret hhandler h.ret h.path (.inl h.near.2)⟩⟩

/-- **A return without a link register costs the search, not a retry**:
the frame behind it is never found. -/
theorem frame_behind_ret_lost {iLr : Word} {offRet : Nat}
    (h : FrameBehindRet c m pc sp iLr offRet off r) (o : Callee) :
    (xtRetaddrCalleeEx c m pc sp iLr o).1 = false := by
  refine callee_fails fun r' hcall => ?_
  obtain ⟨k, off', hk, hvalid⟩ := callee_success_iff.mp hcall
  have hlr : usableLr c iLr = 0 := by
    rw [usableLr, h.no_lr]
    rfl
  rw [hlr] at hk
  obtain ⟨s, hnull, hs⟩ := h.null_stop
  have hbehind := h.behind
  -- what was found is no nearer than the frame, so the return was passed
  have hge : off ≤ off' := by
    refine Nat.le_of_not_lt fun hlt => ?_
    have hno := h.nearer _ (List.mem_of_getElem? hk.entry) hlt
    simp [validStop, hvalid] at hno
  have hpassed := (hk.nearer hs (by show offRet < off'; omega)).2
  simp [nullStop, hnull] at hpassed

theorem earlyReturn_frameBehindRet :
    FrameBehindRet (smallMap 0) earlyReturn 0x4010001a 0x3ffffe00 0 5 10
      ⟨0x40100030, 0x3ffffe10, 0x40100010⟩ where
  no_lr := by decide
  near := by decide
  ret := by decide
  path := verifyPathRetToPc_iff.mp (by decide)
  behind := by decide
  frame := ⟨16, .addi (by decide) (by decide) (by decide) (by decide)⟩
  valid := by decide
  nearer := by decide
  retries := ⟨1, by decide, by decide⟩

theorem frame_behind_ret_lost_earlyReturn :
    (xtRetaddrCalleeEx (smallMap 0) earlyReturn 0x4010001a 0x3ffffe00 0
      ⟨0x4010001a, 0x3ffffe00, 0⟩).1 = false :=
  frame_behind_ret_lost earlyReturn_frameBehindRet _

/-- The frame is there, the second stop, and is not found. -/
theorem early_return_hides_frame :
    FrameBehindRet (smallMap 0) earlyReturn 0x4010001a 0x3ffffe00 0 5 10
        ⟨0x40100030, 0x3ffffe10, 0x40100010⟩
      ∧ xtRetaddrCalleeEx (smallMap 0) earlyReturn 0x4010001a 0x3ffffe00 0
          ⟨0x4010001a, 0x3ffffe00, 0⟩
        ≠ (true, ⟨0x40100030, 0x3ffffe10, 0x40100010⟩) :=
  ⟨earlyReturn_frameBehindRet, by decide⟩

end BacktraceLog
