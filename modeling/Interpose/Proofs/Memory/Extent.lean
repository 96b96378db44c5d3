import Interpose.Proofs.Memory.Placement
import Interpose.Proofs.Memory.Readable
import Mathlib.Data.List.Pairwise

/-!
# How far memory is mapped

What is told as readable goes on through adjoining regions and ends at the first byte that is not
mapped. A read stays inside one region, so it gives these bytes exactly where no other region begins
among them. Both hold of every space that orderly regions come to, whatever is done to them.
-/

namespace Interpose

/-- The range has a byte at a place, which need not be an address. -/
def Range.Spans (r : Range) (x : Nat) : Prop := r.base.toNat ≤ x ∧ x < r.base.toNat + r.length

namespace Space
variable {s s' : Space} {limits : SpaceLimits} {q : Request} {r t : Range} {a : Address}
  {n bound start stop last x : Nat} {bytes code : Bytes} {region : Address × Bytes}

def Spans (s : Space) (x : Nat) : Prop := ∃ r ∈ s.ranges, r.Spans x

/-- Each of the `n` places from an address on is an address at which there is a byte. -/
def Mapped (s : Space) (a : Address) (n : Nat) : Prop :=
  ∀ i < n, ∃ b : Address, b.toNat = a.toNat + i ∧ (s.byteAt? b).isSome

/-- A region begins behind the first of the `n` bytes at an address. -/
def Seam (s : Space) (a : Address) (n : Nat) : Prop :=
  ∃ r ∈ s.ranges, a.toNat < r.base.toNat ∧ r.base.toNat < a.toNat + n

instance (s : Space) (a : Address) (n : Nat) : Decidable (s.Seam a n) :=
  inferInstanceAs (Decidable (∃ r ∈ s.ranges, _))

inductive Act where
  | allocate (q : Request)
  | release (r : Range)
  | patch (a : Address) (bytes : Bytes) (room : Option Nat)
  | poke (a : Address) (bytes : Bytes)
  | register (r : Range) (offsets : List Nat)
  | forget
  deriving DecidableEq, Repr

def left {α : Type} : EStateM.Result Failure Space α → Space
  | .ok _ s => s
  | .error _ s => s

def perform (limits : SpaceLimits) (s : Space) : Act → Space
  | .allocate q => left (allocate limits q s)
  | .release r => release r s
  | .patch a bytes room => left (patch a bytes room s)
  | .poke a bytes => left (poke a bytes s)
  | .register r offsets => left (registerTargets r offsets s)
  | .forget => { s with events := [] }

def performAll (limits : SpaceLimits) (s : Space) (acts : List Act) : Space :=
  acts.foldl (perform limits) s

theorem Orderly.allocated (hs : s.Orderly) (h : Allocated s q r s') : s'.Orderly := by
  refine ⟨h.laid.nonempty, ?_, h.laid.ascending⟩
  intro t ht
  rw [← mem_view_ranges, h.view, View.map_ranges, Multiset.mem_cons] at ht
  rcases ht with rfl | ht
  · have hhigh := (Request.accepts_eq_true.mp h.accepted).2.2.2
    exact Nat.lt_of_le_of_lt hhigh q.high.toNat_lt
  · exact hs.bounded t (mem_view_ranges.mp ht)

theorem Orderly.release (hs : s.Orderly) (r : Range) : (release r s).Orderly := by
  have hsub : (Space.release r s).ranges.Sublist s.ranges := by
    rw [release_ranges]
    exact List.filter_sublist
  exact ⟨fun t ht => hs.nonempty t (hsub.subset ht), fun t ht => hs.bounded t (hsub.subset ht),
    hs.ascending.sublist hsub⟩

theorem poke_ranges (hs : s.Laid) : (left (poke a bytes s)).ranges = s.ranges := by
  unfold poke
  split
  · exact (write_ok hs ‹_›).1
  · rfl
  · rfl

theorem Orderly.perform (hs : s.Orderly) (limits : SpaceLimits) (act : Act) :
    (perform limits s act).Orderly := by
  cases act with
  | allocate q =>
    show (left (Space.allocate limits q s)).Orderly
    cases h : Space.allocate limits q s with
    | ok r s' => exact hs.allocated (allocate_ok hs.laid h).1
    | error e s' =>
      rcases allocate_error hs.laid h with rfl | ⟨r, hallocated⟩
      · exact hs
      · exact hs.allocated hallocated
  | release r => exact hs.release r
  | patch a bytes room =>
    show (left (Space.patch a bytes room s)).Orderly
    cases h : Space.patch a bytes room s with
    | ok saved s' => exact hs.of_ranges (patch_ok hs.laid h).1.ranges
    | error e s' =>
      cases patch_error h
      exact hs
  | poke a bytes => exact hs.of_ranges (poke_ranges hs.laid)
  | register r offsets =>
    show (left (registerTargets r offsets s)).Orderly
    cases h : registerTargets r offsets s with
    | ok u s' => exact hs.of_ranges (registerTargets_ok h).1
    | error e s' =>
      cases registerTargets_error h
      exact hs
  | forget => exact hs.of_ranges rfl

theorem Orderly.performAll (hs : s.Orderly) (limits : SpaceLimits) (acts : List Act) :
    (performAll limits s acts).Orderly := by
  induction acts generalizing s with
  | nil => exact hs
  | cons act acts ih => exact ih (hs.perform limits act)

theorem Orderly.mapped_iff (hs : s.Orderly) :
    s.Mapped a n ↔ ∀ i < n, s.Spans (a.toNat + i) := by
  refine forall₂_congr fun i _ => ?_
  constructor
  · rintro ⟨b, hb, hbyte⟩
    obtain ⟨r, hr, hholds⟩ := (byteAt?_isSome_iff hs.laid).mp hbyte
    exact ⟨r, hr, hb ▸ hholds⟩
  · rintro ⟨r, hr, hspans⟩
    have hplace : (a + UInt64.ofNat i).toNat = a.toNat + i :=
      toNat_add_ofNat (Nat.lt_trans hspans.2 (hs.bounded r hr))
    refine ⟨a + UInt64.ofNat i, hplace, (byteAt?_isSome_iff hs.laid).mpr ⟨r, hr, ?_⟩⟩
    unfold Range.Holds
    rw [hplace]
    exact hspans

theorem Laid.eq_or_apart (hs : s.Laid) (hr : r ∈ s.ranges) (ht : t ∈ s.ranges) :
    r = t ∨ r.Apart t := by
  have hsymm : Std.Symm Range.Apart := ⟨fun _ _ h => h.symm⟩
  exact Classical.or_iff_not_imp_left.mpr (hs.apart.forall hr ht)

/-- The run has a byte at each of its places, and it ends at the bound or where there is none. -/
theorem runStop_spans {regions : Table Address Bytes} (hne : ∀ e ∈ regions, 0 < e.2.length)
    (hasc : regions.Pairwise fun e e' => e.1.toNat + e.2.length ≤ e'.1.toNat)
    (hfrom : ∀ e ∈ regions, stop ≤ e.1.toNat)
    (h : runStop start bound regions stop = .ok last) :
    stop ≤ last ∧ (∀ x, stop ≤ x → x < last → ∃ e ∈ regions, (rangeOf e).Spans x) ∧
      (bound ≤ last - start ∨ ∀ e ∈ regions, ¬ (rangeOf e).Spans last) := by
  induction regions generalizing stop with
  | nil =>
    cases h
    exact ⟨Nat.le_refl _, fun x _ _ => by omega, Or.inr nofun⟩
  | cons region rest ih =>
    obtain ⟨hregion, hne⟩ := List.forall_mem_cons.mp hne
    obtain ⟨hbehind, hasc⟩ := List.pairwise_cons.mp hasc
    obtain ⟨hstop, -⟩ := List.forall_mem_cons.mp hfrom
    unfold runStop at h
    split at h
    · rename_i hbound
      cases h
      exact ⟨Nat.le_refl _, fun x _ _ => by omega, Or.inl hbound⟩
    · split at h
      · -- The region adjoins: the run goes on from its end.
        rename_i hnext
        have hbase : region.1.toNat = stop := by
          simp only [Bool.and_eq_true, decide_eq_true_eq] at hnext
          exact hnext.1
        obtain ⟨next, hnext, h⟩ := Attempt.bind_eq_ok.mp h
        obtain ⟨-, rfl⟩ := Attempt.checked_eq_ok.mp hnext
        obtain ⟨hle, hrun, hend⟩ := ih hne hasc (hbase ▸ hbehind) h
        refine ⟨by omega, ?_, hend.imp_right fun hend => ?_⟩
        · intro x hx hlast
          by_cases hin : x < stop + region.2.length
          · exact ⟨region, List.mem_cons_self, by simp only [Range.Spans, rangeOf]; omega⟩
          · obtain ⟨e, he, hspans⟩ := hrun x (Nat.le_of_not_lt hin) hlast
            exact ⟨e, List.mem_cons_of_mem _ he, hspans⟩
        · refine List.forall_mem_cons.mpr ⟨?_, hend⟩
          simp only [Range.Spans, rangeOf]
          omega
      · -- The region begins further on, and so do all behind it: the run ends where it is.
        rename_i hnext
        have hbase : stop < region.1.toNat := by
          have hdata : region.2.isEmpty = false := by
            simpa [List.length_pos_iff] using hregion
          simp only [hdata, Bool.not_false, Bool.and_true, decide_eq_true_eq] at hnext
          omega
        obtain ⟨hle, hrun, hend⟩ := ih hne hasc
          (fun e he => Nat.le_trans (Nat.le_trans hstop (Nat.le_add_right ..)) (hbehind e he)) h
        have hlast : last = stop := by
          refine Nat.le_antisymm (Nat.le_of_not_lt fun hlt => ?_) hle
          obtain ⟨e, he, hspans⟩ := hrun stop (Nat.le_refl _) hlt
          have := hbehind e he
          simp only [Range.Spans, rangeOf] at hspans
          omega
        subst hlast
        refine ⟨Nat.le_refl _, fun x _ _ => by omega, hend.imp_right fun hend => ?_⟩
        refine List.forall_mem_cons.mpr ⟨?_, hend⟩
        simp only [Range.Spans, rangeOf]
        omega

/-- An address at which there is a byte is in the region that an access there goes to. -/
theorem Orderly.locate_of_spans (hs : s.Orderly) (h : s.Spans a.toNat) :
    ∃ region, s.locate a 0 = .ok (some region) := by
  obtain ⟨r, hr, hspans⟩ := h
  obtain ⟨region, hm, rfl⟩ := List.mem_map.mp hr
  have hwithin : (⟨a, 1⟩ : Range).Within (rangeOf region) := ⟨hspans.1, hspans.2⟩
  obtain ⟨hbelow, hbound, hroom⟩ := locate_eq_some.mp
    (locate_within hs.laid hm Nat.one_pos (hs.bounded _ hr) hwithin)
  exact ⟨region, locate_eq_some.mpr ⟨hbelow, hbound, by omega⟩⟩

theorem Orderly.above (hs : s.Orderly) (hm : region ∈ s.regions) :
    (∀ e ∈ s.regions.filter (region.1 < ·.1), 0 < e.2.length) ∧
      (s.regions.filter (region.1 < ·.1)).Pairwise
        (fun e e' => e.1.toNat + e.2.length ≤ e'.1.toNat) ∧
      ∀ e ∈ s.regions.filter (region.1 < ·.1), region.1.toNat + region.2.length ≤ e.1.toNat := by
  refine ⟨?_, (List.pairwise_map.mp hs.ascending).sublist List.filter_sublist, ?_⟩
  · intro e he
    exact hs.nonempty _ (mem_ranges (List.mem_filter.mp he).1)
  · intro e he
    obtain ⟨hmem, hlt⟩ := List.mem_filter.mp he
    have hbase := UInt64.lt_iff_toNat_lt.mp (of_decide_eq_true hlt)
    obtain heq | hapart := hs.laid.eq_or_apart (mem_ranges hm) (mem_ranges hmem)
    · have hsame : region.1 = e.1 := congrArg Range.base heq
      rw [hsame] at hbase
      exact absurd hbase (Nat.lt_irrefl _)
    · simp only [Range.Apart, rangeOf] at hapart
      omega

theorem Orderly.spans_behind (hs : s.Orderly) (hm : region ∈ s.regions)
    (hx : region.1.toNat + region.2.length ≤ x) :
    s.Spans x ↔ ∃ e ∈ s.regions.filter (region.1 < ·.1), (rangeOf e).Spans x := by
  constructor
  · rintro ⟨r, hr, hspans⟩
    obtain ⟨e, he, rfl⟩ := List.mem_map.mp hr
    refine ⟨e, List.mem_filter.mpr ⟨he, decide_eq_true (UInt64.lt_iff_toNat_lt.mpr ?_)⟩, hspans⟩
    obtain heq | hapart := hs.laid.eq_or_apart (mem_ranges hm) hr
    · rw [← heq] at hspans
      exact absurd hspans.2 (Nat.not_lt.mpr hx)
    · have hne := hs.nonempty _ (mem_ranges hm)
      simp only [Range.Spans, Range.Apart, rangeOf] at hspans hapart hne
      omega
  · rintro ⟨e, he, hspans⟩
    exact ⟨_, mem_ranges (List.mem_filter.mp he).1, hspans⟩

theorem Orderly.readable_spans (hs : s.Orderly) (h : s.readable a bound = .ok n) :
    (∀ i < n, s.Spans (a.toNat + i)) ∧ (n < bound → ¬ s.Spans (a.toNat + n)) := by
  obtain ⟨found, hl, h⟩ := Attempt.bind_eq_ok.mp h
  cases found with
  | none =>
    cases h
    refine ⟨nofun, fun _ hspans => ?_⟩
    obtain ⟨region, hregion⟩ := hs.locate_of_spans hspans
    cases hl.symm.trans hregion
  | some region =>
    obtain ⟨last, hlast, h⟩ := Attempt.bind_eq_ok.mp h
    cases h
    obtain ⟨hbelow, -, hroom⟩ := locate_eq_some.mp hl
    obtain ⟨hm, hle⟩ := regionBelow?_mem hbelow
    rw [UInt64.le_iff_toNat_le] at hle
    obtain ⟨hne, hasc, hbehind⟩ := hs.above hm
    obtain ⟨hstop, hrun, hend⟩ := runStop_spans hne hasc hbehind hlast
    constructor
    · intro i hi
      by_cases hin : a.toNat + i < region.1.toNat + region.2.length
      · exact ⟨_, mem_ranges hm, Nat.le_trans hle (Nat.le_add_right ..), hin⟩
      · rw [hs.spans_behind hm (Nat.le_of_not_lt hin)]
        exact hrun (a.toNat + i) (Nat.le_of_not_lt hin) (by omega)
    · intro hlt hspans
      have hplace : a.toNat + min (last - a.toNat) bound = last := by omega
      rw [hplace, hs.spans_behind hm hstop] at hspans
      obtain ⟨e, he, hspans⟩ := hspans
      exact hend.elim (fun hbound => by omega) fun hnone => hnone e he hspans

/-- Of bytes that are all mapped, those in one region are read. -/
theorem Orderly.read_spans (hs : s.Orderly) (hn : 0 < n) (h : ∀ i < n, s.Spans (a.toNat + i)) :
    (∃ code, s.read a n = .ok code) ↔ ¬ s.Seam a n := by
  obtain ⟨r, hr, hspans⟩ := h 0 hn
  constructor
  · rintro ⟨code, hread⟩ ⟨t, ht, hlow, hhigh⟩
    obtain ⟨region, hl, -⟩ := read_eq_ok.mp hread
    obtain ⟨hm, hwithin⟩ := locate_some hl
    have hne := hs.nonempty t ht
    simp only [Range.Within] at hwithin
    obtain rfl | hapart := hs.laid.eq_or_apart (mem_ranges hm) ht
    · omega
    · unfold Range.Apart at hapart
      omega
  · intro hseam
    refine read_within hs.laid hr (hs.bounded r hr) hn ⟨hspans.1, Nat.le_of_not_lt fun hlt => ?_⟩
    have hplace : a.toNat + (r.base.toNat + r.length - a.toNat) = r.base.toNat + r.length := by
      have := hspans.2
      omega
    obtain ⟨t, ht, hend⟩ := h (r.base.toNat + r.length - a.toNat) (by simp only at hlt; omega)
    rw [hplace] at hend
    unfold Range.Spans at hspans hend
    simp only at hlt
    obtain rfl | hapart := hs.laid.eq_or_apart hr ht
    · omega
    · unfold Range.Apart at hapart
      exact hseam ⟨t, ht, by omega, by omega⟩

/-- As many bytes are told as are mapped in a row, up to the bound. -/
theorem Orderly.readable_greatest (hs : s.Orderly) (h : s.readable a bound = .ok n) :
    s.Mapped a n ∧ ∀ k ≤ bound, s.Mapped a k → k ≤ n := by
  obtain ⟨hrun, hend⟩ := hs.readable_spans h
  refine ⟨hs.mapped_iff.mpr hrun, fun k hk hmapped => Nat.le_of_not_lt fun hlt => ?_⟩
  exact hend (Nat.lt_of_lt_of_le hlt hk) (hs.mapped_iff.mp hmapped n hlt)

theorem readBytes_eq (limits : SpaceLimits) (h : 2 * n < wordLimit) :
    (system limits).readBytes a n s = s.read a n :=
  if_neg (Nat.not_le.mpr h)

/-- Whatever was done to orderly regions, the size told at an address is the number of bytes mapped
from there on, up to the bound. If they are as many as a buffer can hold, then they are read unless
another region begins among them, and the read is refused if one does. -/
theorem readable_extent (hs : s.Orderly) (limits : SpaceLimits) (acts : List Act) (a : Address)
    (bound : Nat) :
    let now := performAll limits s acts
    ∃ n, now.readable a bound = .ok n ∧
      (n ≤ bound ∧ now.Mapped a n ∧ ∀ k ≤ bound, now.Mapped a k → k ≤ n) ∧
      (0 < n → 2 * n < wordLimit →
        (¬ now.Seam a n → ∃ code, (system limits).readBytes a n now = .ok code ∧
          code.length = n ∧
          ∀ b, (⟨a, n⟩ : Range).Holds b → code[b.toNat - a.toNat]? = now.byteAt? b) ∧
        (now.Seam a n → (system limits).readBytes a n now =
          .refuse (.unreadable a (.unmapped n)))) := by
  intro now
  have hnow : now.Orderly := hs.performAll limits acts
  obtain ⟨n, hreadable, hle, hbound⟩ := hnow.readable_total a bound
  obtain ⟨hmapped, hgreatest⟩ := hnow.readable_greatest hreadable
  refine ⟨n, hreadable, ⟨hle, hmapped, hgreatest⟩, fun hn hroom => ?_⟩
  rw [readBytes_eq limits hroom]
  have hread := hnow.read_spans hn (hnow.mapped_iff.mp hmapped)
  constructor
  · intro hseam
    obtain ⟨code, hcode⟩ := hread.mpr hseam
    exact ⟨code, hcode, read_ok hnow.laid hcode⟩
  · intro hseam
    exact (hnow.read_total hbound).resolve_left fun hcode => hread.mp hcode hseam

/-- An allocation that adjoins the code is told with it, and not read with it. -/
theorem readable_extent_allocated :
    let code : Space := { regions := [(0x6FFFFFF0, List.replicate 16 0x90)] }
    let now := performAll {} code [.allocate { size := 64 }, .poke 0x6FFFFFFA [0xC3], .forget]
    now.readable 0x6FFFFFF8 0x100 = .ok 72 ∧
      (system {}).readBytes 0x6FFFFFF8 72 now = .refuse (.unreadable 0x6FFFFFF8 (.unmapped 72)) ∧
      ∃ bytes, (system {}).readBytes 0x6FFFFFF8 8 now = .ok bytes ∧ bytes[2]? = some 0xC3 := by
  intro code now
  have hcode : code.Orderly := by constructor <;> decide
  have hall : now.readable 0x6FFFFFF8 0x100 = .ok 72 := by decide +kernel
  have hfew : now.readable 0x6FFFFFF8 8 = .ok 8 := by decide +kernel
  obtain ⟨n, hn, -, hreads⟩ := readable_extent hcode {} [.allocate { size := 64 },
    .poke 0x6FFFFFFA [0xC3], .forget] 0x6FFFFFF8 0x100
  obtain ⟨m, hm, -, hreads'⟩ := readable_extent hcode {} [.allocate { size := 64 },
    .poke 0x6FFFFFFA [0xC3], .forget] 0x6FFFFFF8 8
  cases hn.symm.trans hall
  cases hm.symm.trans hfew
  obtain ⟨bytes, hbytes, -, hshows⟩ := (hreads' (by decide) (by decide)).1 (by decide +kernel)
  refine ⟨hall, (hreads (by decide) (by decide)).2 (by decide +kernel), bytes, hbytes, ?_⟩
  exact (hshows 0x6FFFFFFA (by decide)).trans (by decide +kernel)

/-- Of two regions that adjoin, the bytes that are told are not read. -/
theorem readable_unread :
    let s : Space := { regions := [(0x1000, List.replicate 16 0x90), (0x1010, [0xC3])] }
    s.Orderly ∧ s.readable 0x1008 0x100 = .ok 9 ∧
      (system {}).readBytes 0x1008 9 s = .refuse (.unreadable 0x1008 (.unmapped 9)) := by
  intro s
  exact ⟨by constructor <;> decide, rfl, rfl⟩

end Space

end Interpose
