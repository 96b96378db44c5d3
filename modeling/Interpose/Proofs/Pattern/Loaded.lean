import Interpose.Pattern.Scan
import Interpose.Proofs.Action
import Interpose.Proofs.Pattern.AtStart
import Interpose.Proofs.Pattern.Fit

/-!
# What a scan of loaded bytes reports

A scan reports the match that is sought in the bytes, with the target it leads to. A pointer to the
target is followed exactly if all of its bytes are loaded. Where it ends is measured from the base,
by a sum that can leave the range of machine words; there, and nowhere else, a scan faults.
-/

namespace Interpose

namespace Loaded
variable {l : Loaded} {a : Address} {n : Nat} {word word' : Bytes}

/-- The bytes of a word stand at an address inside the loaded ones. -/
def Shows (l : Loaded) (a : Address) (word : Bytes) : Prop :=
  ∃ before after, l.data = before ++ word ++ after ∧ a.toNat = l.base.toNat + before.length

/-- The end of `n` bytes at an address is further from the base than a machine word tells. -/
def Overruns (l : Loaded) (a : Address) (n : Nat) : Prop :=
  l.base.toNat ≤ a.toNat ∧ wordLimit ≤ a.toNat - l.base.toNat + n

instance (l : Loaded) (a : Address) (n : Nat) : Decidable (l.Overruns a n) :=
  inferInstanceAs (Decidable (_ ∧ _))

theorem Shows.unique (h : l.Shows a word) (h' : l.Shows a word')
    (hlen : word.length = word'.length) : word = word' := by
  obtain ⟨before, after, hdata, hplace⟩ := h
  obtain ⟨before', after', hdata', hplace'⟩ := h'
  rw [hdata, List.append_assoc, List.append_assoc] at hdata'
  obtain ⟨-, hrest⟩ := List.append_inj hdata' (by omega)
  exact (List.append_inj hrest hlen).1

theorem Shows.not_overruns (h : l.Shows a word) (hroom : l.data.length < wordLimit) :
    ¬ l.Overruns a word.length := by
  obtain ⟨before, after, hdata, hplace⟩ := h
  have hlen := congrArg List.length hdata
  simp only [List.length_append] at hlen
  unfold Overruns
  omega

theorem read_below (h : a.toNat < l.base.toNat) :
    l.read a n = .refuse (.unreadable a .outsideScan) :=
  if_pos (UInt64.lt_iff_toNat_lt.mpr h)

theorem read_overrun (h : l.Overruns a n) : l.read a n = .error .fault := by
  have hlow : ¬ a < l.base := fun hlt => Nat.not_lt.mpr h.1 (UInt64.lt_iff_toNat_lt.mp hlt)
  unfold read
  rw [if_neg hlow]
  exact Attempt.bind_eq_error.mpr (Or.inl (if_neg (Nat.not_lt.mpr h.2)))

theorem read_inside (hlow : l.base.toNat ≤ a.toNat) (h : ¬ l.Overruns a n) : l.read a n =
    if l.data.length < a.toNat - l.base.toNat + n then .refuse (.unreadable a .outsideScan)
    else .ok ((l.data.drop (a.toNat - l.base.toNat)).take n) := by
  have hbase : ¬ a < l.base := fun hlt => Nat.not_lt.mpr hlow (UInt64.lt_iff_toNat_lt.mp hlt)
  have hstop : checked (a.toNat - l.base.toNat + n) = .ok (a.toNat - l.base.toNat + n) :=
    if_pos (Nat.lt_of_not_le fun hle => h ⟨hlow, hle⟩)
  unfold read
  rw [if_neg hbase]
  dsimp only
  rw [hstop]
  rfl

theorem read_ne_fault (h : ¬ l.Overruns a n) : l.read a n ≠ .error .fault := by
  by_cases hlow : a.toNat < l.base.toNat
  · rw [read_below hlow]
    nofun
  · rw [read_inside (Nat.le_of_not_lt hlow) h]
    split <;> nofun

/-- A word is read exactly where it stands, but for a fault. -/
theorem read_eq_ok :
    l.read a n = .ok word ↔ word.length = n ∧ l.Shows a word ∧ ¬ l.Overruns a n := by
  by_cases hlow : a.toNat < l.base.toNat
  · rw [read_below hlow]
    refine ⟨nofun, ?_⟩
    rintro ⟨-, ⟨before, after, -, hplace⟩, -⟩
    omega
  by_cases hover : l.Overruns a n
  · rw [read_overrun hover]
    exact ⟨nofun, fun h => absurd hover h.2.2⟩
  rw [read_inside (Nat.le_of_not_lt hlow) hover]
  constructor
  · intro h
    split at h
    · cases h
    · cases h
      refine ⟨?_, ⟨l.data.take (a.toNat - l.base.toNat),
        l.data.drop (a.toNat - l.base.toNat + n), ?_, ?_⟩, hover⟩
      · rw [List.length_take, List.length_drop]
        omega
      · rw [← List.drop_drop, List.append_assoc, List.take_append_drop, List.take_append_drop]
      · rw [List.length_take]
        omega
  · rintro ⟨rfl, ⟨before, after, hdata, hplace⟩, -⟩
    have hstart : a.toNat - l.base.toNat = before.length := by omega
    have hlen := congrArg List.length hdata
    simp only [List.length_append] at hlen
    rw [hstart, if_neg (by omega), hdata, List.append_assoc, List.drop_left, List.take_left]

theorem pointer?_of_not_overruns (h : ¬ l.Overruns a 8) : ∃ target, l.pointer? a = .ok target ∧
    ∀ v, target = some v ↔ ∃ word, word.length = 8 ∧ l.Shows a word ∧ v.toNat = leNat word := by
  unfold pointer?
  split
  · rename_i word hread
    obtain ⟨hlen, hshows, -⟩ := read_eq_ok.mp hread
    have hlt := leNat_lt word
    rw [hlen] at hlt
    have hvalue : (UInt64.ofNat (leNat word)).toNat = leNat word := UInt64.toNat_ofNat_of_lt' hlt
    refine ⟨_, rfl, fun v => ⟨?_, ?_⟩⟩
    · rintro ⟨rfl⟩
      exact ⟨word, hlen, hshows, hvalue⟩
    · rintro ⟨word', hlen', hshows', hv⟩
      obtain rfl := hshows.unique hshows' (hlen.trans hlen'.symm)
      rw [← hv, UInt64.ofNat_toNat]
  · exact absurd ‹_› (read_ne_fault h)
  · rename_i why hread
    refine ⟨_, rfl, fun v => ⟨nofun, ?_⟩⟩
    rintro ⟨word, hlen, hshows, -⟩
    rw [read_eq_ok.mpr ⟨hlen, hshows, h⟩] at hread
    cases hread

theorem pointer?_overrun (h : l.Overruns a 8) : l.pointer? a = .error .fault := by
  unfold pointer?
  rw [read_overrun h]

end Loaded

/-- What a collection is to find: in all of the bytes the chosen candidate, and at their start the
foremost one. -/
def Sought (ps : List Pattern) (data : Bytes) (search : Bool) (m : Match) : Prop :=
  if search then Chosen ps data m else Foremost ps data m

section Sought
variable {ps : List Pattern} {data : Bytes} {search : Bool} {m : Match}

theorem Sought.candidate (h : Sought ps data search m) : ∃ i s, Candidate ps data i s m := by
  unfold Sought at h
  split at h
  · exact h.candidate
  · obtain ⟨i, hc, -⟩ := h
    exact ⟨i, 0, hc⟩

theorem Candidate.end_le {i s : Nat} (h : Candidate ps data i s m) :
    m.offset + m.hit.length ≤ data.length := by
  obtain ⟨skips, captured, hshort, -⟩ := Pattern.matchAt?_eq_some.mp h.hit
  have hlen := hshort.fits.length_le
  have hpos : 0 < m.pattern.minLength := m.pattern.minLength_pos
  have hmin := h.length_le
  rw [List.length_drop] at hlen
  rw [h.offset]
  omega

end Sought

def Match.decoded (m : Match) (base : Address) : Address :=
  m.pattern.meaning.decode base m.offset m.hit.address

def Match.finding (m : Match) (base : Address) (target : Option Address) : Finding :=
  ⟨m.pattern, m.offset, m.hit.length, m.decoded base, target⟩

/-- The match is reported as it is, and its target as far as the loaded bytes tell it. -/
structure Finding.Reports (f : Finding) (l : Loaded) (m : Match) : Prop where
  pattern : f.pattern = m.pattern
  offset : f.offset = m.offset
  length : f.length = m.hit.length
  inside : f.offset + f.length ≤ l.data.length
  decoded : f.decoded = m.decoded l.base
  direct : m.pattern.meaning.kind.indirect = false → f.target = some f.decoded
  indirect : m.pattern.meaning.kind.indirect = true → ∀ v, f.target = some v ↔
    ∃ word, word.length = 8 ∧ l.Shows f.decoded word ∧ v.toNat = leNat word

namespace Collection
variable {ps : List Pattern} {data : Bytes} {l : Loaded} {search : Bool} {m : Match}

theorem sought_iff :
    (if search then (ofList ps).find? data else (ofList ps).matchAt? data) = some m ↔
      Sought ps data search m := by
  cases search with
  | false => exact ⟨matchAt?_eq_some, matchAt?_of_foremost⟩
  | true => exact ⟨find?_eq_some, find?_of_chosen⟩

theorem scan_nothing (h : ∀ m, ¬ Sought ps l.data search m) :
    (ofList ps).scan l search = .ok none := by
  unfold scan
  rw [Option.eq_none_iff_forall_ne_some.mpr fun m hm => h m (sought_iff.mp hm)]

theorem scan_direct (h : Sought ps l.data search m)
    (hdirect : m.pattern.meaning.kind.indirect = false) :
    (ofList ps).scan l search = .ok (some (m.finding l.base (some (m.decoded l.base)))) := by
  unfold scan
  rw [sought_iff.mpr h]
  dsimp only
  rw [if_neg (by rw [hdirect]; decide)]
  rfl

theorem scan_indirect (h : Sought ps l.data search m)
    (hindirect : m.pattern.meaning.kind.indirect = true) :
    (ofList ps).scan l search =
      l.pointer? (m.decoded l.base) >>= fun target => .ok (some (m.finding l.base target)) := by
  unfold scan
  rw [sought_iff.mpr h]
  dsimp only
  rw [if_pos hindirect]
  rfl

/-- No attempt to match a pattern faults. Without a match to seek, none is reported. A match is
reported with its target, but for a pointer that overruns: then the scan faults, although the
pointer is not among the bytes, if these fit in memory. -/
theorem scan_reports (ps : List Pattern) (l : Loaded) (search : Bool) :
    (∀ p ∈ ps, ∀ data, p.attemptAt data = .ok (p.matchAt? data)) ∧
    ((∀ m, ¬ Sought ps l.data search m) → (ofList ps).scan l search = .ok none) ∧
    ∀ m, Sought ps l.data search m →
      (m.pattern.meaning.kind.indirect = true → l.Overruns (m.decoded l.base) 8 →
        (ofList ps).scan l search = .error .fault ∧
        (l.data.length < wordLimit → ∀ word, word.length = 8 →
          ¬ l.Shows (m.decoded l.base) word)) ∧
      ((m.pattern.meaning.kind.indirect = true → ¬ l.Overruns (m.decoded l.base) 8) →
        ∃ f, (ofList ps).scan l search = .ok (some f) ∧ f.Reports l m) := by
  refine ⟨fun p _ data => ?_, scan_nothing, fun m hm => ⟨fun hindirect hover => ⟨?_, ?_⟩, ?_⟩⟩
  · rw [Pattern.attemptAt_eq, Pattern.matchAt?_eq]
  · rw [scan_indirect hm hindirect, Loaded.pointer?_overrun hover]
    rfl
  · rintro hroom word hlen hshows
    exact hshows.not_overruns hroom (hlen ▸ hover)
  · intro hover
    obtain ⟨i, s, hc⟩ := hm.candidate
    cases hindirect : m.pattern.meaning.kind.indirect with
    | false =>
      refine ⟨_, scan_direct hm hindirect, rfl, rfl, rfl, hc.end_le, rfl, fun _ => rfl, ?_⟩
      intro h
      cases hindirect.symm.trans h
    | true =>
      obtain ⟨target, hpointer, htarget⟩ := Loaded.pointer?_of_not_overruns (hover hindirect)
      refine ⟨m.finding l.base target, ?_, rfl, rfl, rfl, hc.end_le, rfl, ?_, fun _ => htarget⟩
      · rw [scan_indirect hm hindirect, hpointer]
        rfl
      · intro h
        cases hindirect.symm.trans h

/-- A jump behind the first byte, through a pointer behind the jump. -/
theorem scan_reports_followed :
    let jump : Pattern := ⟨"jump", [.literal 0xFF, .literal 0x25, .address, .address, .address,
      .address], ⟨⟨.rel32, true, false⟩, 6⟩, false, by decide, by decide⟩
    let data : Bytes := [0x90, 0xFF, 0x25, 1, 0, 0, 0, 0xCC, 0x00, 0x40, 0, 0, 0, 0, 0, 0]
    ∃ f, (ofList [jump]).scan ⟨0x1000, data⟩ true = .ok (some f) ∧ f.offset = 1 ∧
      f.decoded = 0x1008 ∧ f.target = some 0x4000 := by
  intro jump data
  have hfind : ((ofList [jump]).find? data).map (fun m => (m.pattern, m.offset, m.hit)) =
      some (jump, 1, ⟨6, 1⟩) := by decide +kernel
  obtain ⟨m, hm, heq⟩ := Option.map_eq_some_iff.mp hfind
  have hjump : m = ⟨jump, 1, ⟨6, 1⟩⟩ := by
    rw [Prod.mk.injEq, Prod.mk.injEq] at heq
    rw [← heq.1, ← heq.2.1, ← heq.2.2]
  rw [hjump] at hm
  have hsought : Sought [jump] data true ⟨jump, 1, ⟨6, 1⟩⟩ := sought_iff.mp hm
  obtain ⟨f, hscan, hreports⟩ := ((scan_reports [jump] ⟨0x1000, data⟩ true).2.2 _ hsought).2
    fun _ => by decide
  have hdecoded : f.decoded = 0x1008 := hreports.decoded.trans (by decide)
  refine ⟨f, hscan, hreports.offset, hdecoded, ?_⟩
  refine (hreports.indirect rfl 0x4000).mpr ⟨[0x00, 0x40, 0, 0, 0, 0, 0, 0], rfl, ?_, rfl⟩
  exact ⟨[0x90, 0xFF, 0x25, 1, 0, 0, 0, 0xCC], [], rfl, by rw [hdecoded]; rfl⟩

/-- A jump through a pointer at the last eight addresses, in bytes loaded at the first. -/
theorem scan_faults : ¬ ∀ (ps : List Pattern) (l : Loaded) (search : Bool),
    ∃ found, (ofList ps).scan l search = .ok found := by
  intro hclaim
  let jump : Pattern := ⟨"jump", [.literal 0xFF, .literal 0x25, .address, .address, .address,
    .address], ⟨⟨.rel32, true, false⟩, 6⟩, false, by decide, by decide⟩
  let data : Bytes := [0xFF, 0x25, 0xF2, 0xFF, 0xFF, 0xFF]
  obtain ⟨found, hfound⟩ := hclaim [jump] ⟨0, data⟩ false
  have hm : (ofList [jump]).matchAt? data = some ⟨jump, 0, ⟨6, 0xFFFFFFF2⟩⟩ := by rfl
  have hsought : Sought [jump] data false ⟨jump, 0, ⟨6, 0xFFFFFFF2⟩⟩ := sought_iff.mp hm
  have hscan := scan_indirect (l := ⟨0, data⟩) hsought rfl
  rw [Loaded.pointer?_overrun (by decide)] at hscan
  cases hscan.symm.trans hfound

end Collection

end Interpose
