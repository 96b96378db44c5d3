import Interpose.Proofs.Arch.Encoding
import Interpose.Proofs.Engine.AltEntry
import Interpose.Proofs.Memory.Log

/-!
# What operations hand out

An operation hands out addresses to call and the allocations behind them. What is handed out was not
there before, is kept apart from what else there is, and each address is registered once. Taking
memory, writing code to it and registering places in it hands out these places; a failure on the way
hands out nothing, and the log stays sound.
-/

namespace Interpose

open Space

/-- What an operation hands out: addresses to call, and the allocations behind them. -/
structure Handed where
  entries : List Address := []
  owned : List Range := []
  deriving DecidableEq, Repr

namespace Handed

def append (x y : Handed) : Handed := ⟨x.entries ++ y.entries, x.owned ++ y.owned⟩

def drop (r : Range) (x : Handed) : Handed :=
  ⟨x.entries.filter fun a => ¬ r.Holds a, x.owned.erase r⟩

end Handed

/-- A space proceeds to another in which the entries handed out are registered. -/
structure Hands (guard : Nat) (s : Space) (x : Handed) (s' : Space) : Prop extends
    Proceeds guard [] s s' where
  mapped : ∀ r ∈ x.owned, r ∈ s'.ranges ∧ 0 < r.length
  fresh : ∀ r ∈ x.owned, ∀ t ∈ s.ranges, 0 < t.length → r.base ≠ t.base
  distinct : x.owned.Pairwise fun r t => r.base ≠ t.base
  entered : ∀ a ∈ x.entries, ∃ r ∈ x.owned, r.Holds a ∧ Log.Registered s'.events r a

variable {guard n size : Nat} {limits : SpaceLimits} {q : Request} {x y : Handed}
  {s s' t u : Space} {r memory : Range} {freed : List Range} {offsets : List Nat}
  {code saved : Bytes} {e : Failure} {z : Unit}

namespace Hands

theorem of_proceeds (h : Proceeds guard [] s s') : Hands guard s {} s' :=
  ⟨h, nofun, nofun, .nil, nofun⟩

theorem kept (h : Proceeds guard [] s s') (hr : r ∈ s.ranges) (hpos : 0 < r.length) :
    r ∈ s'.ranges := by
  obtain ⟨_, -, -, hkept⟩ := h.log
  exact (hkept r hr hpos nofun).1

theorem registered (h : Proceeds guard freed s s') {a : Address} (hr : r ∈ s.ranges)
    (ha : r.Holds a) (hout : ∀ t ∈ freed, t.base ≠ r.base) (hreg : Log.Registered s.events r a) :
    Log.Registered s'.events r a := by
  obtain ⟨new, hnew, -, hkept⟩ := h.log
  have hpos : 0 < r.length := by
    unfold Range.Holds at ha
    omega
  rw [hnew]
  exact hreg.append ha (hkept r hr hpos hout).2

theorem append (h : Hands guard s x t) (h' : Hands guard t y u) :
    Hands guard s (x.append y) u := by
  refine ⟨h.toProceeds.trans h'.toProceeds, fun r hr => ?_, fun r hr v hv hpos => ?_, ?_,
    fun a ha => ?_⟩
  · rcases List.mem_append.mp hr with hr | hr
    · obtain ⟨hm, hpos⟩ := h.mapped r hr
      exact ⟨kept h'.toProceeds hm hpos, hpos⟩
    · exact h'.mapped r hr
  · rcases List.mem_append.mp hr with hr | hr
    · exact h.fresh r hr v hv hpos
    · exact h'.fresh r hr v (kept h.toProceeds hv hpos) hpos
  · refine List.pairwise_append.mpr ⟨h.distinct, h'.distinct, fun r hr v hv heq => ?_⟩
    obtain ⟨hm, hpos⟩ := h.mapped r hr
    exact h'.fresh v hv r hm hpos heq.symm
  · rcases List.mem_append.mp ha with ha | ha
    · obtain ⟨r, hr, hholds, hreg⟩ := h.entered a ha
      exact ⟨r, List.mem_append_left _ hr, hholds,
        registered h'.toProceeds (h.mapped r hr).1 hholds nofun hreg⟩
    · obtain ⟨r, hr, hentered⟩ := h'.entered a ha
      exact ⟨r, List.mem_append_right _ hr, hentered⟩

/-- When what was handed out is given back, only what else was freed matters. -/
theorem cancel (h : Hands guard s x t) (hp : Proceeds guard (freed ++ x.owned) t u) :
    Proceeds guard freed s u := by
  have hall : Proceeds guard (freed ++ x.owned) s u := h.toProceeds.trans hp
  exact hall.drop h.fresh

theorem undone (h : Hands guard s ⟨[], [r]⟩ t) (hp : Proceeds guard [] t u) :
    Proceeds guard [] s (release r u) :=
  h.cancel (hp.trans (proceeds_release hp.ascending r))

theorem drop (h : Hands guard s x t) (hr : r ∈ x.owned) :
    Hands guard s (x.drop r) (release r t) := by
  have hp : Proceeds guard [r] t (release r t) := proceeds_release h.ascending r
  have hne : ∀ v ∈ x.owned.erase r, r.base ≠ v.base := by
    have hperm := List.perm_cons_erase hr
    have hpair := (hperm.pairwise_iff fun h => Ne.symm h).mp h.distinct
    exact (List.pairwise_cons.mp hpair).1
  have hfresh : ∀ v ∈ [r], ∀ w ∈ s.ranges, 0 < w.length → v.base ≠ w.base := by
    intro v hv
    rw [List.mem_singleton.mp hv]
    exact h.fresh r hr
  obtain ⟨_, -, -, hkept⟩ := hp.log
  refine ⟨(h.toProceeds.trans hp).drop hfresh, fun v hv => ?_,
    fun v hv => h.fresh v (List.mem_of_mem_erase hv), h.distinct.sublist List.erase_sublist,
    fun a ha => ?_⟩
  · obtain ⟨hm, hpos⟩ := h.mapped v (List.mem_of_mem_erase hv)
    exact ⟨(hkept v hm hpos (by simpa using hne v hv)).1, hpos⟩
  · obtain ⟨hentry, hout⟩ := List.mem_filter.mp ha
    obtain ⟨v, hv, hholds, hreg⟩ := h.entered a hentry
    have hv' : v ∈ x.owned.erase r := by
      refine (List.mem_erase_of_ne ?_).mpr hv
      rintro rfl
      simp [hholds] at hout
    exact ⟨v, hv', hholds, registered hp (h.mapped v hv).1 hholds (by simpa using hne v hv') hreg⟩

end Hands

theorem Space.Taken.hands (h : Taken s q r t) : Hands guard s ⟨[], [r]⟩ t := by
  refine ⟨h.proceeds, fun v hv => ?_, fun v hv w hw hpos => ?_, List.pairwise_singleton _ _, nofun⟩
  · rw [List.mem_singleton.mp hv]
    exact ⟨h.mapped, h.pos⟩
  · rw [List.mem_singleton.mp hv]
    exact base_ne_of_apart (h.apart w hw) h.pos hpos

theorem Space.Taken.offset (h : Taken s q r t) {offset : Nat} (hoffset : offset < r.length) :
    (r.base + UInt64.ofNat offset).toNat = r.base.toNat + offset := by
  obtain ⟨-, -, -, hhigh⟩ := Request.accepts_eq_true.mp h.accepted
  have hlimit := q.high.toNat_lt
  exact toNat_add_ofNat (by simp only [wordLimit]; omega)

theorem Space.Taken.holds (h : Taken s q r t) {offset : Nat} (hoffset : offset < r.length) :
    r.Holds (r.base + UInt64.ofNat offset) := by
  unfold Range.Holds
  rw [h.offset hoffset]
  omega

theorem Space.Taken.countP (h : Taken s q r t) (hin : ∀ offset ∈ offsets, offset < r.length)
    (hnodup : offsets.Nodup) {offset : Nat} (hoffset : offset ∈ offsets) :
    offsets.countP (fun o => r.base + UInt64.ofNat o = r.base + UInt64.ofNat offset) = 1 := by
  have hsame : ∀ o ∈ offsets,
      decide (r.base + UInt64.ofNat o = r.base + UInt64.ofNat offset) = (o == offset) := by
    intro o ho
    have heq : r.base + UInt64.ofNat o = r.base + UInt64.ofNat offset ↔ o = offset := by
      constructor
      · intro hbase
        have hnat := congrArg UInt64.toNat hbase
        rw [h.offset (hin o ho), h.offset (hin offset hoffset)] at hnat
        omega
      · rintro rfl
        rfl
    rw [Bool.eq_iff_iff]
    simp [heq]
  rw [List.countP_congr fun o ho => by rw [hsame o ho]]
  exact List.count_eq_one_of_mem hnodup hoffset

theorem System.registerGuarded_log (hg : limits.guard = some guard)
    (h : (Space.system limits).registerGuarded r offsets u = .ok z s') :
    s' = u.log (.register r.base offsets) := by
  have hguard : (Space.system limits).guard.isSome = true := by simp [Space.system, hg]
  unfold System.registerGuarded at h
  rw [if_pos hguard] at h
  exact registerTargets_log h

/-- Code that is written to memory just taken, and then registered at some offsets. -/
theorem Space.Taken.installed (hg : limits.guard = some guard) (h : Taken s q memory t)
    (hlen : code.length ≤ memory.length)
    (hoffsets : ∀ offset ∈ offsets,
      offset < code.length ∧ (memory.base.toNat + offset) % guard = 0)
    (hnodup : offsets.Nodup) (hpatch : patch memory.base code none t = .ok saved u)
    (hregister : (Space.system limits).registerGuarded memory offsets u = .ok z s') :
    Hands guard s ⟨offsets.map fun offset => memory.base + UInt64.ofNat offset, [memory]⟩ s' := by
  obtain ⟨hevents, hascending, hkept⟩ := patch_log h.ascending hpatch
  have hs' := System.registerGuarded_log hg hregister
  have hlog : s'.events = s.events ++ [.allocate memory, .patch ⟨memory.base, code.length⟩,
      .register memory.base offsets] := by
    rw [hs', Space.log, hevents, h.events, List.append_assoc, List.append_assoc]
    rfl
  have hranges : s'.ranges = u.ranges := by
    rw [hs']
    rfl
  have hin : ∀ offset ∈ offsets, offset < memory.length := fun offset hoffset =>
    Nat.lt_of_lt_of_le (hoffsets offset hoffset).1 hlen
  have hholds : ∀ offset ∈ offsets, memory.Holds (memory.base + UInt64.ofNat offset) :=
    fun offset hoffset => h.holds (hin offset hoffset)
  have hproceeds : Proceeds guard [] s s' := by
    refine ⟨by rw [hs']; exact hascending, _, hlog, Log.sound_install hoffsets,
      fun v hv hpos _ => ⟨?_, fun e he => ?_⟩⟩
    · rw [hranges]
      exact hkept v (h.kept v hv hpos)
    · simp only [List.mem_cons, List.not_mem_nil, or_false] at he
      rcases he with rfl | rfl | rfl
      · exact base_ne_of_apart (h.apart v hv) h.pos hpos
      · trivial
      · intro offset hoffset hv'
        exact (h.apart v hv).not_holds (hholds offset hoffset) hv'
  have hhands : Hands guard s ⟨[], [memory]⟩ t := h.hands
  refine ⟨hproceeds, fun v hv => ?_, hhands.fresh, List.pairwise_singleton _ _, fun a ha => ?_⟩
  · rw [List.mem_singleton.mp hv, hranges]
    exact ⟨hkept memory h.mapped, h.pos⟩
  · obtain ⟨offset, hoffset, rfl⟩ := List.mem_map.mp ha
    refine ⟨memory, List.mem_singleton.mpr rfl, hholds offset hoffset, s.events, _, hlog, ?_, ?_⟩
    · simp
    · simpa [Event.registrations] using h.countP hin hnodup hoffset

theorem Space.Taken.not_installed (h : Taken s q memory t)
    (hfail : patch memory.base code none t = .error e u ∨ ∃ saved v,
      patch memory.base code none t = .ok saved v ∧
        (Space.system limits).registerGuarded memory offsets v = .error e u) :
    Proceeds guard [] t u := by
  rcases hfail with hpatch | ⟨saved, v, hpatch, hregister⟩
  · rw [patch_error hpatch]
    exact .refl h.ascending
  · rw [System.registerGuarded_error hregister]
    exact proceeds_patch h.ascending hpatch

theorem System.installing_hands (hg : limits.guard = some guard) (ha : s.regions.Ascending)
    (hlen : code.length ≤ q.size) (hdvd : guard ∣ q.alignment)
    (hoffsets : 0 < q.size → ∀ offset ∈ offsets, offset < code.length ∧ guard ∣ offset)
    (hnodup : 0 < q.size → offsets.Nodup)
    (h : (Space.system limits).installing q code offsets s = .ok r s') :
    Hands guard s ⟨offsets.map fun offset => r.base + UInt64.ofNat offset, [r]⟩ s' := by
  obtain ⟨t, saved, u, z, halloc, hpatch, hregister⟩ := System.installing_steps h
  have ht := allocate_taken ha halloc
  have hpos : 0 < q.size := ht.length ▸ ht.pos
  obtain ⟨-, -, haligned, -⟩ := Request.accepts_eq_true.mp ht.accepted
  have hbase : guard ∣ r.base.toNat := hdvd.trans (Nat.dvd_of_mod_eq_zero haligned)
  refine ht.installed hg (ht.length ▸ hlen) (fun offset hoffset => ?_) (hnodup hpos) hpatch hregister
  obtain ⟨hlt, hmultiple⟩ := hoffsets hpos offset hoffset
  exact ⟨hlt, Nat.mod_eq_zero_of_dvd (Nat.dvd_add hbase hmultiple)⟩

theorem System.installing_error (ha : s.regions.Ascending)
    (h : (Space.system limits).installing q code offsets s = .error e s') :
    Proceeds guard [] s s' := by
  rcases System.installing_fails h with halloc | ⟨memory, t, halloc, u, rfl, hfail⟩
  · exact proceeds_allocate_error ha halloc
  · have ht := allocate_taken ha halloc
    exact ht.hands.undone (ht.not_installed hfail)

end Interpose
