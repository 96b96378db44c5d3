import Interpose.Proofs.Memory.Allocation

/-!
# What the log tells

A log is sound for a guard when each call target in it was registered after the code it lies in had
been written, and that after the memory had last been allocated. A space proceeds to another when the
log goes on soundly and says nothing of the memory that was mapped before, save for what is freed.
All that is needed of a space here is that its regions are sorted; they may be empty or overlap.
-/

namespace Interpose

namespace Event

/-- The event puts no allocation in the place of a range and no call target inside. -/
def Spares (t : Range) : Event → Prop
  | allocate r => r.base ≠ t.base
  | register base offsets => ∀ offset ∈ offsets, ¬ t.Holds (base + UInt64.ofNat offset)
  | free _ | patch _ => True

def registrations (a : Address) : Event → Nat
  | register base offsets => offsets.countP fun offset => base + UInt64.ofNat offset = a
  | _ => 0

theorem registrations_eq_zero {e : Event} {t : Range} {a : Address} (h : e.Spares t)
    (ha : t.Holds a) : e.registrations a = 0 := by
  cases e with
  | register base offsets =>
    refine List.countP_eq_zero.mpr fun offset hoffset heq => h offset hoffset ?_
    rwa [of_decide_eq_true heq]
  | _ => rfl

end Event

namespace Log
variable {guard n : Nat} {log more before after : List Event} {b a : Address} {offsets : List Nat}
  {r t : Range} {e : Event}

/-- What comes before the registration of call targets. -/
def Prepared (guard : Nat) (before : List Event) (b : Address) (offsets : List Nat) : Prop :=
  ∃ earlier r between n since, before = earlier ++ .allocate r :: (between ++ .patch ⟨b, n⟩ :: since) ∧
    r.base = b ∧ (∀ r', .allocate r' ∈ between ++ since → r'.base ≠ b) ∧
    ∀ offset ∈ offsets, offset < n ∧ (b.toNat + offset) % guard = 0

def Sound (guard : Nat) (log : List Event) : Prop :=
  ∀ before b offsets after, log = before ++ .register b offsets :: after →
    Prepared guard before b offsets

theorem Prepared.append (h : Prepared guard before b offsets) (log : List Event) :
    Prepared guard (log ++ before) b offsets := by
  obtain ⟨earlier, r, between, n, since, rfl, hrest⟩ := h
  exact ⟨log ++ earlier, r, between, n, since, by rw [List.append_assoc], hrest⟩

theorem Sound.append (h : Sound guard log) (h' : Sound guard more) : Sound guard (log ++ more) := by
  intro before b offsets after hsplit
  rcases List.append_eq_append_iff.mp hsplit with ⟨rest, rfl, hmore⟩ | ⟨rest, hlog, hrest⟩
  · exact (h' rest b offsets after hmore).append log
  · cases rest with
    | nil =>
      rw [List.append_nil] at hlog
      rw [← hlog, ← List.append_nil log]
      exact (h' [] b offsets after hrest.symm).append log
    | cons first rest =>
      obtain ⟨rfl, -⟩ := List.cons.inj hrest
      exact h before b offsets rest hlog

theorem sound_of_quiet (h : ∀ b offsets, .register b offsets ∉ log) : Sound guard log := by
  rintro before b offsets after rfl
  exact absurd (by simp) (h b offsets)

/-- Memory is taken, written and then registered. -/
theorem sound_install (hoffsets : ∀ offset ∈ offsets, offset < n ∧ (r.base.toNat + offset) % guard = 0) :
    Sound guard [.allocate r, .patch ⟨r.base, n⟩, .register r.base offsets] := by
  intro before b targets after hsplit
  obtain ⟨rfl, rfl, rfl⟩ : before = [.allocate r, .patch ⟨r.base, n⟩] ∧ b = r.base ∧
      targets = offsets := by
    rcases before with _ | ⟨e₁, _ | ⟨e₂, _ | ⟨e₃, before⟩⟩⟩
    · cases hsplit
    · cases hsplit
    · cases hsplit
      exact ⟨rfl, rfl, rfl⟩
    · simp at hsplit
  exact ⟨[], r, [], n, [], rfl, rfl, nofun, hoffsets⟩

/-- The last that happened to a range is that it was allocated, and an address in it has been
registered once since. -/
def Registered (log : List Event) (r : Range) (a : Address) : Prop :=
  ∃ earlier since, log = earlier ++ .allocate r :: since ∧
    (∀ r', .allocate r' ∈ since → r'.base ≠ r.base) ∧
    (since.map (·.registrations a)).sum = 1

theorem Registered.append (h : Registered log r a) (ha : r.Holds a)
    (hmore : ∀ e ∈ more, e.Spares r) : Registered (log ++ more) r a := by
  obtain ⟨earlier, since, rfl, hlast, hsum⟩ := h
  refine ⟨earlier, since ++ more, by simp, fun r' hr' => ?_, ?_⟩
  · rcases List.mem_append.mp hr' with hr' | hr'
    · exact hlast r' hr'
    · exact hmore _ hr'
  · have hzero : (more.map (·.registrations a)).sum = 0 := by
      refine List.sum_eq_zero_iff_forall_eq_nat.mpr fun n hn => ?_
      obtain ⟨e, he, rfl⟩ := List.mem_map.mp hn
      exact Event.registrations_eq_zero (hmore e he) ha
    rw [List.map_append, List.sum_append, hsum, hzero]

end Log

namespace Space
variable {s s' t u : Space} {limits : SpaceLimits} {q : Request} {r : Range} {a : Address}
  {bytes saved : Bytes} {room : Option Nat} {guard : Nat} {freed more : List Range} {e : Failure}
  {offsets : List Nat}

theorem mem_ranges_iff (ha : s.regions.Ascending) {t : Range} :
    t ∈ s.ranges ↔ (s.regions.get? t.base).map List.length = some t.length := by
  constructor
  · intro ht
    obtain ⟨region, hregion, rfl⟩ := List.mem_map.mp ht
    rw [rangeOf, Table.get?_of_mem ha hregion, Option.map_some]
  · intro h
    obtain ⟨data, hdata, hlen⟩ := Option.map_eq_some_iff.mp h
    have hmem := mem_ranges (Table.mem_of_get? hdata)
    rwa [rangeOf, hlen] at hmem

theorem mem_ranges_alter (ha : s.regions.Ascending) {base : Address} {data : Bytes} {t : Range}
    (h : s'.regions = s.regions.alter base fun _ => data) (ht : t ∈ s.ranges)
    (hlen : t.base = base → data.length = t.length) : t ∈ s'.ranges := by
  have ha' : s'.regions.Ascending := h ▸ ha.alter
  rw [mem_ranges_iff ha', h]
  by_cases hb : t.base = base
  · rw [hb, Table.get?_alter_self ha, Option.map_some, hlen hb]
  · rw [Table.get?_alter_of_ne hb]
    exact (mem_ranges_iff ha).mp ht

theorem write_log (ha : s.regions.Ascending) (h : s.write a bytes = .ok s') :
    s'.events = s.events ∧ s'.regions.Ascending ∧ ∀ t ∈ s.ranges, t ∈ s'.ranges := by
  obtain ⟨found, hl, h⟩ := Attempt.bind_eq_ok.mp h
  cases found with
  | none => cases h
  | some region =>
    cases h
    obtain ⟨hm, hlo, hhi⟩ := locate_some hl
    simp only [rangeOf] at hlo hhi
    refine ⟨rfl, ha.alter, fun t ht => mem_ranges_alter ha rfl ht fun hb => ?_⟩
    rw [length_overwrite (by omega)]
    have hget := (mem_ranges_iff ha).mp ht
    rw [hb, Table.get?_of_mem ha hm] at hget
    exact Option.some.inj hget

structure Proceeds (guard : Nat) (freed : List Range) (s s' : Space) : Prop where
  ascending : s'.regions.Ascending
  log : ∃ new, s'.events = s.events ++ new ∧ Log.Sound guard new ∧
    ∀ t ∈ s.ranges, 0 < t.length → (∀ r ∈ freed, r.base ≠ t.base) →
      t ∈ s'.ranges ∧ ∀ e ∈ new, e.Spares t

theorem Proceeds.refl (ha : s.regions.Ascending) : Proceeds guard [] s s :=
  ⟨ha, [], by simp, Log.sound_of_quiet nofun, fun t ht _ _ => ⟨ht, nofun⟩⟩

theorem Proceeds.trans (h : Proceeds guard freed s t) (h' : Proceeds guard more t u) :
    Proceeds guard (freed ++ more) s u := by
  obtain ⟨new, hnew, hsound, hkept⟩ := h.log
  obtain ⟨later, hlater, hsound', hkept'⟩ := h'.log
  refine ⟨h'.ascending, new ++ later, by rw [hlater, hnew, List.append_assoc],
    hsound.append hsound', fun r hr hpos hout => ?_⟩
  obtain ⟨hmid, hspared⟩ := hkept r hr hpos fun x hx => hout x (List.mem_append_left _ hx)
  obtain ⟨hend, hspared'⟩ := hkept' r hmid hpos fun x hx => hout x (List.mem_append_right _ hx)
  refine ⟨hend, fun e he => ?_⟩
  rcases List.mem_append.mp he with he | he
  · exact hspared e he
  · exact hspared' e he

theorem Proceeds.drop (h : Proceeds guard (freed ++ more) s s')
    (hfresh : ∀ r ∈ more, ∀ t ∈ s.ranges, 0 < t.length → r.base ≠ t.base) :
    Proceeds guard freed s s' := by
  obtain ⟨new, hnew, hsound, hkept⟩ := h.log
  refine ⟨h.ascending, new, hnew, hsound, fun t ht hpos hout => hkept t ht hpos fun r hr => ?_⟩
  rcases List.mem_append.mp hr with hr | hr
  · exact hout r hr
  · exact hfresh r hr t ht hpos

theorem proceeds_release (ha : s.regions.Ascending) (r : Range) :
    Proceeds guard [r] s (release r s) := by
  refine ⟨List.Pairwise.sublist List.filter_sublist ha, [.free r], rfl,
    Log.sound_of_quiet (by simp), fun t ht _ hout => ⟨?_, ?_⟩⟩
  · rw [release_ranges, List.mem_filter]
    exact ⟨ht, by simpa using (hout r (List.mem_singleton.mpr rfl)).symm⟩
  · intro e he
    rw [List.mem_singleton.mp he]
    trivial

theorem proceeds_releaseOption (ha : s.regions.Ascending) (range : Option Range) :
    Proceeds guard range.toList s ((Space.system limits).releaseOption range s) := by
  cases range with
  | none => exact .refl ha
  | some r => exact proceeds_release ha r

theorem patch_write (h : patch a bytes room s = .ok saved s') :
    ∃ written, s.write a bytes = .ok written ∧ s' = written.log (.patch ⟨a, bytes.length⟩) := by
  unfold patch at h
  split at h
  · rename_i kept written hexchange
    cases h
    obtain ⟨_, -, hrest⟩ := Attempt.bind_eq_ok.mp hexchange
    obtain ⟨_, -, hrest⟩ := Attempt.bind_eq_ok.mp hrest
    obtain ⟨_, hwrite, hpure⟩ := Attempt.bind_eq_ok.mp hrest
    cases hpure
    exact ⟨_, hwrite, rfl⟩
  · cases h

theorem patch_log (ha : s.regions.Ascending) (h : patch a bytes room s = .ok saved s') :
    s'.events = s.events ++ [.patch ⟨a, bytes.length⟩] ∧ s'.regions.Ascending ∧
      ∀ t ∈ s.ranges, t ∈ s'.ranges := by
  obtain ⟨written, hwrite, rfl⟩ := patch_write h
  obtain ⟨hevents, hascending, hkept⟩ := write_log ha hwrite
  exact ⟨congrArg (· ++ _) hevents, hascending, hkept⟩

theorem proceeds_patch (ha : s.regions.Ascending) (h : patch a bytes room s = .ok saved s') :
    Proceeds guard [] s s' := by
  obtain ⟨hevents, hascending, hkept⟩ := patch_log ha h
  refine ⟨hascending, _, hevents, Log.sound_of_quiet (by simp), fun t ht _ _ => ⟨hkept t ht, ?_⟩⟩
  intro e he
  rw [List.mem_singleton.mp he]
  trivial

theorem registerTargets_log {x : Unit} (h : registerTargets r offsets s = .ok x s') :
    s' = s.log (.register r.base offsets) := by
  unfold registerTargets at h
  split at h <;> cases h
  rfl

/-- What an allocation leaves in the log. -/
structure Taken (s : Space) (q : Request) (r : Range) (s' : Space) : Prop where
  ascending : s'.regions.Ascending
  events : s'.events = s.events ++ [.allocate r]
  mapped : r ∈ s'.ranges
  apart : ∀ t ∈ s.ranges, r.Apart t
  kept : ∀ t ∈ s.ranges, 0 < t.length → t ∈ s'.ranges
  only : ∀ t ∈ s'.ranges, t = r ∨ t ∈ s.ranges
  length : r.length = q.size
  pos : 0 < r.length
  accepted : q.accepts r = .ok true

theorem base_ne_of_apart {t : Range} (h : r.Apart t) (hr : 0 < r.length) (ht : 0 < t.length) :
    r.base ≠ t.base := by
  intro heq
  simp only [Range.Apart, heq] at h
  omega

theorem findRoom_taken {base : Address} (ha : s.regions.Ascending)
    (hroom : s.findRoom limits q = .ok base)
    (hregions : s'.regions = s.regions.insert base (List.replicate q.size 0))
    (hevents : s'.events = s.events ++ [.allocate ⟨base, q.size⟩]) :
    Taken s q ⟨base, q.size⟩ s' := by
  obtain ⟨hsize, -, hacc, hfree⟩ := findRoom_ok hroom
  have hnew : (s'.regions.get? base) = some (List.replicate q.size 0) := by
    rw [hregions]
    exact Table.get?_alter_self ha
  have ha' : s'.regions.Ascending := hregions ▸ ha.alter
  refine ⟨ha', hevents, ?_, hfree, fun t ht hpos => ?_, fun t ht => ?_, rfl, hsize, hacc⟩
  · rw [mem_ranges_iff ha', hnew, Option.map_some, List.length_replicate]
  · exact mem_ranges_alter ha hregions ht fun heq =>
      absurd heq.symm (base_ne_of_apart (hfree t ht) hsize hpos)
  · rw [mem_ranges_iff ha'] at ht
    by_cases hb : t.base = base
    · rw [hb, hnew, Option.map_some, List.length_replicate] at ht
      exact Or.inl (Range.ext hb (Option.some.inj ht).symm)
    · rw [hregions, Table.insert, Table.get?_alter_of_ne hb] at ht
      exact Or.inr ((mem_ranges_iff ha).mpr ht)

theorem allocate_taken (ha : s.regions.Ascending) (h : allocate limits q s = .ok r s') :
    Taken s q r s' := by
  unfold allocate at h
  split at h
  · cases h
  · rename_i base hroom
    dsimp only at h
    split at h
    · cases h
      exact findRoom_taken ha hroom rfl rfl
    · split at h <;> cases h
      exact findRoom_taken ha hroom rfl rfl

theorem Taken.proceeds (h : Taken s q r s') : Proceeds guard [] s s' := by
  refine ⟨h.ascending, _, h.events, Log.sound_of_quiet (by simp),
    fun t ht hpos _ => ⟨h.kept t ht hpos, ?_⟩⟩
  intro e he
  rw [List.mem_singleton.mp he]
  exact base_ne_of_apart (h.apart t ht) h.pos hpos

theorem proceeds_allocate_error (ha : s.regions.Ascending)
    (h : allocate limits q s = .error e s') : Proceeds guard [] s s' := by
  unfold allocate at h
  split at h
  · cases h
    exact .refl ha
  · rename_i base hroom
    dsimp only at h
    split at h
    · cases h
    · split at h <;> cases h
      exact (findRoom_taken ha hroom rfl rfl).proceeds

end Space

end Interpose
