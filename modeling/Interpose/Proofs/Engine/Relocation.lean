import Interpose.Proofs.Engine.Failing
import Interpose.Proofs.Engine.Targets
import Interpose.Proofs.Memory.Placement
import Interpose.Proofs.Memory.Readable

/-!
# Whole instructions

An alternate entry is made of the instructions that stand back to back at the entry until the bytes
a redirect takes are covered, followed by a jump to the boundary behind them. Of the relocator only
the lengths of what it decodes are used. In an orderly space nothing on the way stops for an
overflow but the arithmetic of the allocator.
-/

namespace Interpose.Relocator
open Space

variable {rel : Relocator} {limits : SpaceLimits} {s s' t : Space} {entry a : Address}
  {memory : Range} {n k d wanted : Nat} {code : Bytes} {pieces : List (rel.Piece × Address)}
  {q : Request} {e : Failure} {u : Unit} {guard : Nat}

/-- The instructions that stand back to back in some code, `k` bytes behind the entry, until
`wanted` bytes from the entry are covered; `d` is the boundary that they end at. -/
inductive Covers (rel : Relocator) (entry : Address) (wanted : Nat) :
    (k : Nat) → Bytes → List (rel.Piece × Address) → (d : Nat) → Prop
  | done {k : Nat} {code : Bytes} (hk : wanted ≤ k) : Covers rel entry wanted k code [] k
  | next {k n d : Nat} {code : Bytes} {piece : rel.Piece} {pieces : List (rel.Piece × Address)}
      (hk : k < wanted) (hdecode : rel.decode? (entry + UInt64.ofNat k) code = some (piece, n))
      (hrest : Covers rel entry wanted (k + n) (code.drop n) pieces d) :
      Covers rel entry wanted k code ((piece, entry + UInt64.ofNat k) :: pieces) d

theorem Covers.le (h : Covers rel entry wanted k code pieces d) : d ≤ k + code.length := by
  induction h with
  | done hk => exact Nat.le_add_right ..
  | next hk hdecode hrest ih =>
    have := (rel.decode_length hdecode).2.2
    rw [List.length_drop] at ih
    omega

theorem Covers.bounds (h : Covers rel entry wanted k code pieces d)
    (hk : k < wanted + longestInstruction) : wanted ≤ d ∧ d < wanted + longestInstruction := by
  induction h with
  | done hwanted => exact ⟨hwanted, hk⟩
  | next hk hdecode hrest ih =>
    have := (rel.decode_length hdecode).2.1
    exact ih (by omega)

theorem split_covers (h : rel.split entry wanted k code = .ok (pieces, d)) :
    Covers rel entry wanted k code pieces d := by
  fun_induction split rel entry wanted k code generalizing pieces d with
  | case1 => cases h
  | case2 => cases h
  | case3 k code hk place hne piece n hdecode =>
    rename_i ih
    obtain ⟨⟨below, total⟩, hrest, h⟩ := Attempt.bind_eq_ok.mp h
    cases h
    exact .next hk hdecode (ih hrest)
  | case4 k code hk =>
    cases h
    exact .done (Nat.le_of_not_lt hk)

theorem split_error (h : rel.split entry wanted k code = .error e) : ∃ why, e = .refused why := by
  fun_induction split rel entry wanted k code with
  | case1 =>
    cases h
    exact ⟨_, rfl⟩
  | case2 =>
    cases h
    exact ⟨_, rfl⟩
  | case3 k code hk place hne piece n hdecode ih =>
    rcases Attempt.bind_eq_error.mp h with hrest | ⟨_, -, hpure⟩
    · exact ih hrest
    · cases hpure
  | case4 => cases h

/-- The instructions that are moved are read off the bytes at the entry. -/
theorem clobbered_covers (h : rel.clobbered (Space.system limits) entry n s = .ok pieces) :
    ∃ window front d, s.readable entry (n + longestInstruction) = .ok window.length ∧
      s.read entry window.length = .ok window ∧ Covers rel entry n 0 window front d ∧
      pieces = front ++ [(rel.jump (entry + UInt64.ofNat d), 0)] := by
  obtain ⟨bound, hbound, h⟩ := Attempt.bind_eq_ok.mp h
  obtain ⟨-, rfl⟩ := Attempt.checked_eq_ok.mp hbound
  obtain ⟨count, hcount, h⟩ := Attempt.bind_eq_ok.mp h
  split at h
  · cases h
  · obtain ⟨window, hread, h⟩ := Attempt.bind_eq_ok.mp h
    obtain ⟨⟨front, d⟩, hsplit, h⟩ := Attempt.bind_eq_ok.mp h
    cases h
    have hlength : window.length = count := length_read hread
    subst hlength
    exact ⟨window, front, d, hcount, hread, split_covers hsplit, rfl⟩

theorem clobbered_error (hs : s.Orderly) (hn : n ≤ maxRedirectSize)
    (h : rel.clobbered (Space.system limits) entry n s = .error e) : ∃ why, e = .refused why := by
  rcases Attempt.bind_eq_error.mp h with hbound | ⟨bound, -, h⟩
  · have hok : checked (n + longestInstruction) = .ok (n + longestInstruction) := by
      unfold maxRedirectSize at hn
      refine Attempt.checked_eq_ok.mpr ⟨?_, rfl⟩
      unfold longestInstruction wordLimit
      omega
    rw [hok] at hbound
    cases hbound
  · obtain ⟨count, hcount, -, hbelow⟩ := hs.readable_total entry bound
    rcases Attempt.bind_eq_error.mp h with hfault | ⟨count', hcount', h⟩
    · rw [show (Space.system limits).readable entry bound s = _ from hcount] at hfault
      cases hfault
    · rw [show (Space.system limits).readable entry bound s = _ from hcount] at hcount'
      cases hcount'
      split at h
      · cases h
        exact ⟨_, rfl⟩
      · rcases Attempt.bind_eq_error.mp h with hread | ⟨window, -, h⟩
        · rcases hs.read_total hbelow with ⟨window, hok⟩ | hrefused
          · rw [show (Space.system limits).read entry count s = _ from hok] at hread
            cases hread
          · rw [show (Space.system limits).read entry count s = _ from hrefused] at hread
            cases hread
            exact ⟨_, rfl⟩
        · rcases Attempt.bind_eq_error.mp h with hsplit | ⟨_, -, hpure⟩
          · exact split_error hsplit
          · cases hpure

/-- Where the arithmetic of the allocator overflows for an allocation that is tried near an address,
and anywhere when that is refused. -/
inductive OverflowsAround (limits : SpaceLimits) (s : Space) (a : Address) (q : Request) : Prop
  | near (h : Overflows limits s (q.near a Redirect.nearReach))
  | anywhere {why : Error}
      (hrefused : Space.allocate limits (q.near a Redirect.nearReach) s = .error (.refused why) s)
      (h : Overflows limits s q)

theorem allocateAround_fault (hs : s.Orderly)
    (h : allocateAround (Space.system limits) a q s = .error .fault s') :
    OverflowsAround limits s a q := by
  rcases allocateAround_fails h with ⟨-, hnear⟩ | ⟨why, t, hrefused, halloc⟩
  · exact .near (hs.allocate_fault hnear)
  · obtain rfl := allocate_refused hrefused
    exact .anywhere hrefused (hs.allocate_fault halloc)

theorem registerGuarded_total {offsets : List Nat} (ha : t.regions.Ascending)
    (hm : memory ∈ t.ranges) (hbound : memory.base.toNat + memory.length < wordLimit) :
    (Space.system limits).registerGuarded memory offsets t ≠ .error e s' := by
  intro h
  unfold System.registerGuarded at h
  split at h
  · change Space.registerTargets memory offsets t = .error e s' at h
    rw [registerTargets_base ha hm hbound] at h
    cases h
  · exact (Action.pure_eq_error.mp h).elim

theorem fill_refused (ha : t.regions.Ascending) (hm : memory ∈ t.ranges)
    (hbound : memory.base.toNat + memory.length < wordLimit)
    (h : rel.fill (Space.system limits) pieces memory t = .error e s') :
    ∃ why, e = .refused why := by
  rcases fill_fails h with ⟨why, hwhy, -⟩ | ⟨code, -, hlen, hstopped⟩
  · exact ⟨why, hwhy⟩
  · obtain ⟨v, hwritten⟩ := patch_base ha hm hbound hlen
    rcases hstopped with hpatch | ⟨saved, w, hpatch, hregister⟩
    · change Space.patch memory.base code none t = .error e s' at hpatch
      rw [hwritten] at hpatch
      cases hpatch
    · obtain ⟨-, ha', hkept⟩ := patch_log ha hpatch
      exact absurd hregister (registerGuarded_total ha' (hkept _ hm) hbound)

/-- What an alternate entry that was made in memory of its own enters: the instructions of the
window at the entry up to a boundary `d` behind what was to be covered, and a jump to that. -/
structure Enters (rel : Relocator) (limits : SpaceLimits) (s : Space) (entry : Address) (n : Nat)
    (memory : Range) (window : Bytes) (pieces : List (rel.Piece × Address)) (d : Nat) (code : Bytes)
    (s' : Space) : Prop where
  measured : s.readable entry (n + longestInstruction) = .ok window.length
  read : s.read entry window.length = .ok window
  covers : Covers rel entry n 0 window pieces d
  reaches : n ≤ d
  short : d < n + longestInstruction
  behind : (entry + UInt64.ofNat d).toNat = entry.toNat + d
  encoded : rel.encode? memory.base (pieces ++ [(rel.jump (entry + UInt64.ofNat d), 0)]) = some code
  fits : code.length ≤ memory.length
  written : s'.read memory.base code.length = .ok code
  fresh : ∀ t ∈ s.ranges, t.Apart memory
  extended : Extended s [memory] s'
  aligned : 16 ∣ memory.base.toNat
  guarded : ∀ guard, limits.guard = some guard →
    guard ∣ memory.base.toNat ∧ s'.events.getLast? = some (.register memory.base [0])

theorem least_dvd_codeAlignment {least : Nat}
    (hpower : ∀ guard, limits.guard = some guard → isPowerOfTwo guard = true)
    (hleast : isPowerOfTwo least = true) : least ∣ (Space.system limits).codeAlignment least := by
  show least ∣ max (limits.guard.getD 0) least
  cases hg : limits.guard with
  | none => simp
  | some guard =>
    rw [Option.getD_some]
    rcases Nat.le_total guard least with hle | hle
    · rw [Nat.max_eq_right hle]
    · rw [Nat.max_eq_left hle]
      exact powerOfTwo_dvd hleast (hpower guard hg) hle

theorem createAlternateEntry_fault (hs : s.Orderly) (hn : n ≤ maxRedirectSize)
    (harith : ¬ OverflowsAround limits s entry (entryRequest (Space.system limits) n)) :
    rel.createAlternateEntry (Space.system limits) entry n s ≠ .error .fault s' := by
  intro h
  rcases createAlternateEntry_fails h with
    ⟨hclobbered, -⟩ | hroom | ⟨pieces, room, t, t', hroom, hfill, -⟩
  · obtain ⟨why, hwhy⟩ := clobbered_error hs hn hclobbered
    cases hwhy
  · exact harith (allocateAround_fault hs hroom)
  · obtain ⟨p, ht, -⟩ := allocateAround_taken hs.laid.ascending_regions hroom
    obtain ⟨-, -, -, hhigh⟩ := Request.accepts_eq_true.mp ht.accepted
    obtain ⟨why, hwhy⟩ := fill_refused ht.ascending ht.mapped
      (Nat.lt_of_le_of_lt hhigh (UInt64.toNat_lt _)) hfill
    cases hwhy

theorem createAlternateEntry_enters (hs : s.Orderly)
    (hpower : ∀ guard, limits.guard = some guard → isPowerOfTwo guard = true)
    (h : rel.createAlternateEntry (Space.system limits) entry n s = .ok memory s') :
    ∃ window pieces d code, Enters rel limits s entry n memory window pieces d code s' := by
  have hextended := createAlternateEntry_ok hs.laid h
  obtain ⟨moved, t, hclobbered, hroom, hfill⟩ := createAlternateEntry_steps h
  obtain ⟨window, pieces, d, hmeasured, hread, hcovers, rfl⟩ := clobbered_covers hclobbered
  obtain ⟨p, ht, halign⟩ := allocateAround_taken hs.laid.ascending_regions hroom
  obtain ⟨code, saved, v, hcode, hfits, hpatch, hregister⟩ := fill_steps hfill
  obtain ⟨hreaches, hshort⟩ := hcovers.bounds (by unfold longestInstruction; omega)
  have hbelow := read_below hread
  have hle := hcovers.le
  obtain ⟨-, -, haligned, -⟩ := Request.accepts_eq_true.mp ht.accepted
  have hdvd := Nat.dvd_of_mod_eq_zero haligned
  rw [halign] at hdvd
  refine ⟨window, pieces, d, code, hmeasured, hread, hcovers, hreaches, hshort, ?_, hcode, hfits, ?_,
    ?_, hextended, ?_, ?_⟩
  · exact toNat_add_ofNat (by omega)
  · rw [read_of_regions (System.registerGuarded_regions hregister)]
    exact patch_read ht.ascending hpatch
  · exact fun t ht => hextended.apart ht List.mem_cons_self
  · exact (least_dvd_codeAlignment hpower (by decide)).trans hdvd
  · intro guard hguard
    refine ⟨(dvd_codeAlignment hguard (hpower guard hguard)).trans hdvd, ?_⟩
    rw [System.registerGuarded_log hguard hregister]
    simp [Space.log]

/-- Unless the arithmetic of the allocator overflows, an alternate entry is refused and the memory
is as it was, or it enters the whole instructions that cover the bytes a redirect takes. -/
theorem createAlternateEntry_correct (rel : Relocator) (hs : s.Orderly) (hn : n ≤ maxRedirectSize)
    (hpower : ∀ guard, limits.guard = some guard → isPowerOfTwo guard = true)
    (harith : ¬ OverflowsAround limits s entry (entryRequest (Space.system limits) n)) :
    (∃ why s', rel.createAlternateEntry (Space.system limits) entry n s = .error (.refused why) s' ∧
      Unchanged s s') ∨
    ∃ memory s' window pieces d code,
      rel.createAlternateEntry (Space.system limits) entry n s = .ok memory s' ∧
        Enters rel limits s entry n memory window pieces d code s' := by
  cases h : rel.createAlternateEntry (Space.system limits) entry n s with
  | ok memory s' =>
    obtain ⟨window, pieces, d, code, henters⟩ := createAlternateEntry_enters hs hpower h
    exact Or.inr ⟨memory, s', window, pieces, d, code, rfl, henters⟩
  | error e s' =>
    cases e with
    | fault => exact absurd h (createAlternateEntry_fault hs hn harith)
    | refused why =>
      exact Or.inl ⟨why, s', rfl, ((createAlternateEntry_refused hs.laid h).alike hs.laid).unchanged⟩

/-- A guarded entry for the first five bytes of a prologue: three instructions of eight bytes. -/
theorem createAlternateEntry_correct_prologue :
    let limits : SpaceLimits := { guard := some 32 }
    let s : Space := { regions := [(0x1000, [0x55, 0x48, 0x89, 0xE5, 0x48, 0x83, 0xEC, 0x20, 0x90,
      0x90, 0x90, 0x90, 0x90, 0x90, 0x90, 0x90, 0x90, 0x90, 0x90, 0x90, 0x90, 0x90, 0x90, 0xC3])] }
    ∃ memory s' window pieces d code,
      X86.relocator.createAlternateEntry (Space.system limits) 0x1000 5 s = .ok memory s' ∧
        Enters X86.relocator limits s 0x1000 5 memory window pieces d code s' := by
  intro limits s
  have hs : s.Orderly := by constructor <;> decide
  have hpower : ∀ guard, limits.guard = some guard → isPowerOfTwo guard = true := by
    rintro guard h
    cases h
    decide
  have harith : ¬ OverflowsAround limits s 0x1000 (entryRequest (Space.system limits) 5) := by
    intro h
    cases h with
    | near h =>
      refine not_overflows ?_ (by decide) h
      unfold Vacant
      decide +kernel
    | anywhere hrefused h =>
      refine not_overflows ?_ (by decide) h
      unfold Vacant
      decide +kernel
  have hrun : X86.relocator.createAlternateEntry (Space.system limits) 0x1000 5 s matches .ok .. := by
    decide +kernel
  rcases createAlternateEntry_correct X86.relocator hs (by decide) hpower harith with
    ⟨why, s', hrefused, -⟩ | hmade
  · rw [hrefused] at hrun
    cases hrun
  · exact hmade

end Interpose.Relocator
