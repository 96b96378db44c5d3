import Interpose.Proofs.Engine.StubPage
import Interpose.Proofs.Memory.Reading

/-!
# Proxy slots

Regions may overlap in a space, yet an access inside a fresh allocation always goes to it, and it
keeps its bytes while others are made beside it. So every slot of a proxy reads as the template of
its instruction set with the slot's field filled in. The field counts eight bytes a slot, also on
the 32-bit instruction set, whose tables have four-byte entries.
-/

namespace Interpose

namespace Space
variable {s s' t : Space} {limits : SpaceLimits} {q : Request} {r x : Range} {a : Address}
  {n k : Nat} {code bytes saved : Bytes} {room : Option Nat}

theorem allocate_regions (h : allocate limits q s = .ok r s') :
    s'.regions = s.regions.insert r.base (List.replicate q.size 0) := by
  unfold allocate at h
  split at h
  · cases h
  · dsimp only at h
    split at h
    · cases h
      rfl
    · split at h <;> cases h
      rfl

theorem patch_regions (h : patch a code room s = .ok saved s') :
    ∃ region, s.locate a code.length = .ok (some region) ∧ s'.regions =
      s.regions.alter region.1 fun _ => overwrite region.2 (a.toNat - region.1.toNat) code := by
  obtain ⟨written, hwrite, rfl⟩ := patch_write h
  obtain ⟨found, hlocate, h⟩ := Attempt.bind_eq_ok.mp hwrite
  cases found with
  | none => cases h
  | some region =>
    cases h
    exact ⟨region, hlocate, rfl⟩

/-- A region with its bytes, inside which no other region begins. -/
structure Sole (r : Range) (bytes : Bytes) (s : Space) : Prop where
  pos : 0 < r.length
  held : s.regions.get? r.base = some bytes
  length : bytes.length = r.length
  bounded : r.base.toNat + r.length < wordLimit
  alone : ∀ t ∈ s.ranges, r.base.toNat < t.base.toNat → r.base.toNat + r.length ≤ t.base.toNat

theorem Sole.congr (h : s'.regions = s.regions) (hx : Sole x bytes s) : Sole x bytes s' := by
  have hranges : s'.ranges = s.ranges := congrArg (List.map rangeOf) h
  exact ⟨hx.pos, h ▸ hx.held, hx.length, hx.bounded, hranges ▸ hx.alone⟩

theorem Sole.mapped (h : Sole x bytes s) : x ∈ s.ranges := by
  have hmem := mem_ranges (Table.mem_of_get? h.held)
  rwa [rangeOf, h.length] at hmem

theorem Sole.read (ha : s.regions.Ascending) (h : Sole x bytes s) (hn : 0 < n)
    (hk : k + n ≤ x.length) :
    s.read (x.base + UInt64.ofNat k) n = .ok ((bytes.drop k).take n) := by
  have hbound := h.bounded
  have hall : s.read x.base x.length = .ok bytes := by
    apply read_eq_ok.mpr
    refine ⟨(x.base, bytes), locate_eq_some.mpr ⟨?_, ?_, ?_⟩, ?_⟩
    · exact regionBelow?_base ha (Table.mem_of_get? h.held)
    · rwa [h.length]
    · rw [h.length]
    · rw [Nat.sub_self, List.drop_zero, ← h.length, List.take_length]
  have hdrop := read_drop hall (k := k) (by omega) fun t ht hlt => by
    have := h.alone t ht hlt
    omega
  exact read_take hdrop (by omega)

/-- Filling a fresh allocation with as many bytes leaves it on its own, and everything else that
was. -/
theorem sole_of_patch (ha : s.regions.Ascending) (halloc : allocate limits q s = .ok r t)
    (hpatch : patch r.base code none t = .ok saved s') (hlen : code.length = q.size) :
    s'.regions.Ascending ∧ Sole r code s' ∧ ∀ x bytes, Sole x bytes s → Sole x bytes s' := by
  have ht := allocate_taken ha halloc
  have hzeros : t.regions.get? r.base = some (List.replicate q.size 0) := by
    rw [allocate_regions halloc]
    exact Table.get?_alter_self ha
  obtain ⟨region, hlocate, hregions⟩ := patch_regions hpatch
  obtain ⟨hbelow, -, -⟩ := locate_eq_some.mp hlocate
  rw [regionBelow?_base ht.ascending (Table.mem_of_get? hzeros), Option.some.injEq] at hbelow
  subst hbelow
  have hranges : s'.ranges = t.ranges := patch_ranges ht.ascending hpatch
  refine ⟨hregions ▸ ht.ascending.alter, ⟨ht.pos, ?_, hlen.trans ht.length.symm, ?_, ?_⟩, ?_⟩
  · rw [hregions, Table.get?_alter_self ht.ascending]
    simp [overwrite, hlen]
  · obtain ⟨-, -, -, hhigh⟩ := Request.accepts_eq_true.mp ht.accepted
    exact Nat.lt_of_le_of_lt hhigh (UInt64.toNat_lt _)
  · intro x hx hlt
    rw [hranges] at hx
    rcases ht.only x hx with rfl | hx
    · omega
    · have := ht.apart x hx
      simp only [Range.Apart] at this
      omega
  · intro x bytes hx
    have hapart := ht.apart x hx.mapped
    have hne : x.base ≠ r.base := (base_ne_of_apart hapart ht.pos hx.pos).symm
    refine ⟨hx.pos, ?_, hx.length, hx.bounded, fun y hy hlt => ?_⟩
    · rw [hregions, Table.get?_alter_of_ne hne, allocate_regions halloc, Table.insert,
        Table.get?_alter_of_ne hne]
      exact hx.held
    · rw [hranges] at hy
      rcases ht.only y hy with rfl | hy
      · simp only [Range.Apart] at hapart
        omega
      · exact hx.alone y hy hlt

end Space

namespace StubPage
open Space

variable {limits : SpaceLimits} {s s' : Space} {template stub blank : Bytes}
  {page stubs : List Bytes} {offset size n i k j : Nat} {premultiply : Bool}
  {r : Range} {table : List Address} {made ranges : List Range}

theorem createPage_sole (ha : s.regions.Ascending) (hstubs : ∀ stub ∈ stubs, stub.length = size)
    (h : createPage (Space.system limits) size stubs s = .ok r s') :
    s'.regions.Ascending ∧ Sole r stubs.flatten s' ∧
      ∀ x bytes, Sole x bytes s → Sole x bytes s' := by
  obtain ⟨t, saved, v, u, halloc, hpatch, hregister⟩ := System.installing_steps h
  have hregions := System.registerGuarded_regions hregister
  obtain ⟨hascending, hsole, hkept⟩ := sole_of_patch ha halloc hpatch (length_flatten hstubs)
  refine ⟨hregions ▸ hascending, hsole.congr hregions, fun x bytes hx => ?_⟩
  exact (hkept x bytes hx).congr hregions

/-- Every batch gets a page of its own, which keeps its stubs while the others are made. -/
theorem createPages_sole {batches : List (Nat × Nat)} (ha : s.regions.Ascending)
    (hclean : Clean offset blank page) (hblank : blank.length = size) (hfits : offset + 4 ≤ size)
    (hcount : ∀ b ∈ batches, b.2 ≤ page.length)
    (h : createPages (Space.system limits) offset size premultiply batches page made s =
      .ok (table, ranges) s') :
    s'.regions.Ascending ∧ (∀ x bytes, Sole x bytes s → Sole x bytes s') ∧
      List.Forall₂ (fun b r =>
        Sole r (numbered offset premultiply blank b.1 b.2).flatten s') batches ranges ∧
      table = (List.zipWith (fun b r => stubSlots r.base size b.2) batches ranges).flatten := by
  subst hblank
  induction batches generalizing page s made table ranges with
  | nil =>
    obtain ⟨hpair, rfl⟩ := Action.pure_eq_ok.mp h
    obtain ⟨rfl, rfl⟩ := Prod.mk.inj hpair
    exact ⟨ha, fun _ _ hx => hx, .nil, rfl⟩
  | cons batch rest ih =>
    obtain ⟨first, count⟩ := batch
    obtain ⟨hfirst, hrest⟩ := List.forall_mem_cons.mp hcount
    obtain ⟨memory, t, hpage, h⟩ := Action.bind_eq_ok.mp h
    obtain ⟨⟨below, others⟩, w, hmore, h⟩ := Action.bind_eq_ok.mp h
    obtain ⟨hpair, rfl⟩ := Action.pure_eq_ok.mp h
    obtain ⟨rfl, rfl⟩ := Prod.mk.inj hpair
    have hpage := Action.guarded_eq_ok.mp hpage
    rw [hclean.take_renumber hfirst] at hpage
    obtain ⟨hascending, hsole, hkept⟩ :=
      createPage_sole ha (fun _ => length_of_mem_numbered hfits) hpage
    obtain ⟨hascending', hkept', hall, htable⟩ := ih hascending (hclean.renumber hfits)
      (fun b hb => by rw [length_renumber]; exact hrest b hb) hmore
    refine ⟨hascending', fun x bytes hx => hkept' x bytes (hkept x bytes hx), ?_, ?_⟩
    · exact .cons (hkept' _ _ hsole) hall
    · rw [htable, List.zipWith_cons_cons, List.flatten_cons]

theorem take_drop_flatten (hsizes : ∀ stub ∈ stubs, stub.length = size)
    (hstub : stubs[j]? = some stub) (hn : n ≤ size) :
    (stubs.flatten.drop (j * size)).take n = stub.take n := by
  have hlen : stub.length = size := hsizes stub (List.mem_of_getElem? hstub)
  have hfront : ∀ b ∈ stubs.take j, b.length = size := fun b hb =>
    hsizes b (List.mem_of_mem_take hb)
  apply List.ext_getElem?
  intro m
  rw [List.getElem?_take, List.getElem?_take, List.getElem?_drop]
  by_cases hm : m < n
  · rw [if_pos hm, if_pos hm, getElem?_flatten_of_length hfront hstub (by omega)]
  · rw [if_neg hm, if_neg hm]

theorem createTable_reads (ha : s.regions.Ascending)
    (h : createTable (Space.system limits) n template offset premultiply s =
      .ok (table, ranges) s') :
    table.length = n ∧ ∀ i slot, table[i]? = some slot →
      offset + 4 ≤ template.length ∧ fieldValue premultiply i < 2 ^ 32 ∧
      fieldValue premultiply i = (if premultiply then 8 * i else i) ∧
      s'.read slot template.length =
        .ok (setField offset (fieldValue premultiply i) template) := by
  by_cases hn : n = 0
  · subst hn
    obtain ⟨rfl, rfl⟩ := createTable_zero h
    simp
  obtain ⟨size, hsize, hfield, hlast, hK, hpages⟩ := createTable_ok hn h
  have hne : batches (limits.maxAllocation / size) n ≠ [] :=
    List.ne_nil_of_length_pos (Nat.zero_lt_of_lt (div_lt_batches hK (Nat.pos_of_ne_zero hn)))
  have hpower := createPages_powerOfTwo hne hpages
  have hle : template.length ≤ size := by
    rw [stubSize_ok hpower hsize]
    exact length_le_paddedLength hpower
  have hblank : (blankStub template size).length = size := length_blankStub hle
  obtain ⟨hascending, -, hall, rfl⟩ := createPages_sole ha clean_replicate hblank (by omega)
    (fun b hb => by
      rw [List.length_replicate]
      exact count_le_of_mem_batches hb) hpages
  refine ⟨length_table hK hall.length_eq, fun i slot hslot => ?_⟩
  have hi := lt_of_getElem?_table hK hall.length_eq hslot
  obtain ⟨r, hr⟩ := exists_page hK hi hall.length_eq
  rw [getElem?_table hK hi hr] at hslot
  obtain rfl := Option.some.inj hslot
  have hsole := forall₂_batches hall hr
  obtain ⟨hvalue, hbound⟩ := fieldValue_eq hi hlast
  refine ⟨hfield, hbound, hvalue, ?_⟩
  have hsizes (first count : Nat) : ∀ stub ∈ numbered offset premultiply
      (blankStub template size) first count, stub.length = size := fun stub hmem =>
    (length_of_mem_numbered (by omega) hmem).trans hblank
  have hroom := Nat.mul_le_mul_right size (mod_lt_count hK hi)
  have hlength := hsole.length
  rw [length_flatten (hsizes _ _), length_numbered] at hlength
  rw [Nat.succ_mul, hlength] at hroom
  rw [hsole.read hascending (by omega) (by omega),
    take_drop_flatten (hsizes _ _) (getElem?_numbered _ _ _ hK hi) hle,
    take_setField_blankStub hfield hle]

variable {isa : Isa} {slots : Nat} {proxy : Proxy}

theorem proxyStub?_pointers {os : OsKind} {stub : ProxyStub}
    (h : isa.proxyStub? os = some stub) : stub.premultiplied = true ∧
      (8 * i = i * isa.kind.pointerSize ↔ isa = .x86_64 ∨ i = 0) := by
  cases isa with
  | x86 =>
    cases h
    simp only [ProxyStub.ofCode, Isa.kind, ArchKind.pointerSize, reduceCtorEq, false_or, true_and]
    omega
  | x86_64 =>
    simp only [Isa.proxyStub?] at h
    split at h <;> cases h <;> simp [ProxyStub.ofCode, Isa.kind, ArchKind.pointerSize, Nat.mul_comm]
  | aarch64 => cases h

/-- The code at every entry of a proxy is the template of the instruction set but for the slot
field, which counts eight bytes a slot. This is the distance of the slot in the wrapped table where
pointers have eight bytes; in a table of four-byte pointers only the first slot is met. -/
theorem createProxy_forwards (ha : s.regions.Ascending)
    (h : createProxy (Space.system limits) isa slots s = .ok proxy s') :
    ∃ stub, isa.proxyStub? limits.os = some stub ∧ proxy.table.length = slots ∧
      ∀ i slot, proxy.table[i]? = some slot →
        8 * i < 2 ^ 32 ∧ (8 * i = i * isa.kind.pointerSize ↔ isa = .x86_64 ∨ i = 0) ∧
        ∃ code, s'.read slot stub.template.length = .ok code ∧
          leNat ((code.drop stub.indexOffset).take 4) = 8 * i ∧
          code.length = stub.template.length ∧
          ∀ j, ¬ (stub.indexOffset ≤ j ∧ j < stub.indexOffset + 4) →
            code[j]? = stub.template[j]? := by
  obtain ⟨stub, hstub, htable⟩ := createProxy_ok h
  obtain ⟨hlength, hreads⟩ := createTable_reads ha htable
  refine ⟨stub, hstub, hlength, fun i slot hslot => ?_⟩
  obtain ⟨hfield, hbound, hvalue, hread⟩ := hreads i slot hslot
  obtain ⟨hpremultiplied, hpointers⟩ := proxyStub?_pointers hstub
  rw [if_pos hpremultiplied] at hvalue
  rw [hvalue] at hbound hread
  refine ⟨hbound, hpointers, _, hread, ?_, length_setField hfield, fun j hj => ?_⟩
  · rw [field_setField hfield, leNat_leBytes]
    exact Nat.mod_eq_of_lt hbound
  · rw [getElem?_setField hfield, if_neg hj]

/-- Five slots of which three fit an allocation, in a space where two regions overlap. -/
theorem createProxy_forwards_overlapping :
    let limits : SpaceLimits := { maxAllocation := 50, os := .windows }
    let s : Space := { regions := [(0x1000, [1, 2, 3, 4]), (0x1002, [5, 6, 7, 8])] }
    ∃ proxy s', createProxy (Space.system limits) .x86_64 5 s = .ok proxy s' ∧
      proxy.table.length = 5 ∧ ∃ slot code, proxy.table[4]? = some slot ∧
        s'.read slot 16 = .ok code ∧
        leNat ((code.drop 9).take 4) = 4 * ArchKind.x86_64.pointerSize := by
  intro limits s
  have ha : s.regions.Ascending := by
    unfold Table.Ascending
    decide
  have hrun : createProxy (Space.system limits) .x86_64 5 s matches .ok .. := by decide +kernel
  cases h : createProxy (Space.system limits) .x86_64 5 s with
  | error =>
    rw [h] at hrun
    cases hrun
  | ok proxy s' =>
    obtain ⟨stub, hstub, hlength, hslots⟩ := createProxy_forwards ha h
    have hslot : proxy.table[4]? = some proxy.table[4] := List.getElem?_eq_getElem (by omega)
    obtain ⟨-, hpointers, code, hread, hfield, -⟩ := hslots 4 _ hslot
    cases hstub
    exact ⟨proxy, s', rfl, hlength, _, code, hslot, hread, hfield⟩

/-- The second slot of a 32-bit proxy jumps through the ninth byte of a table whose second pointer
begins at the fifth. -/
theorem createProxy_doubles : ∃ s',
    createProxy (Space.system {}) .x86 2 ({} : Space) =
      .ok ⟨[0x70000000, 0x70000010], [⟨0x70000000, 32⟩]⟩ s' ∧
    s'.read 0x70000010 16 = .ok [0x8B, 0x49, 0x04, 0x8B, 0x01, 0xFF, 0xA0, 8, 0, 0, 0, 0xCC, 0xCC,
      0xCC, 0xCC, 0xCC] ∧
    leNat [8, 0, 0, 0] ≠ 1 * Isa.x86.kind.pointerSize := by
  obtain ⟨proxy, s', hrun, rfl, hread⟩ := Action.exists_ok
    (x := createProxy (Space.system {}) .x86 2) (s := {})
    (P := fun proxy s' => proxy = ⟨[0x70000000, 0x70000010], [⟨0x70000000, 32⟩]⟩ ∧
      s'.read 0x70000010 16 = .ok [0x8B, 0x49, 0x04, 0x8B, 0x01, 0xFF, 0xA0, 8, 0, 0, 0, 0xCC, 0xCC,
        0xCC, 0xCC, 0xCC]) (by decide +kernel)
  exact ⟨s', hrun, hread, by decide⟩

end StubPage

end Interpose
