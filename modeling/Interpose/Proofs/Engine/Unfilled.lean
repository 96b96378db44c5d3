import Interpose.Proofs.Engine.Failing
import Interpose.Proofs.Engine.Targets

/-!
# Tables that cannot be filled

Filling a table takes page after page and writes the table at the end. Whichever page is refused, and
at whichever step, the page under way and all pages made before it are given back: the memory is as
it was, and nothing was written to the table.
-/

namespace Interpose

open Space

variable {limits : SpaceLimits} {init s s' : Space} {q : Request} {template blank code : Bytes}
  {page stubs : List Bytes} {made more : List Range} {todo : List (Nat × Nat)}
  {offsets : List Nat} {offset size slots : Nat} {premultiply : Bool} {why : Error}

/-- Memory is only written where the request had room for the code. -/
theorem System.installing_refused (hs : s.Laid)
    (hlen : isPowerOfTwo q.alignment = true → code.length ≤ q.size)
    (h : (Space.system limits).installing q code offsets s = .error (.refused why) s') :
    Extended s [] s' := by
  rcases System.installing_fails h with halloc | ⟨memory, t, halloc, u, rfl, hfail⟩
  · rw [allocate_refused halloc]
    exact .refl hs
  have ha := (allocate_ok hs halloc).1
  have hwithin : (⟨memory.base, code.length⟩ : Range).Within memory := by
    refine ⟨Nat.le_refl _, Nat.add_le_add_left ?_ _⟩
    rw [ha.length]
    exact hlen (allocate_powerOfTwo halloc)
  rcases hfail with hpatch | ⟨saved, v, hpatch, hregister⟩
  · rw [patch_error hpatch]
    exact ha.extended.release
  · have hp := (patch_ok ha.laid hpatch).1
    rw [System.registerGuarded_error hregister]
    exact (ha.extended.patch hp List.mem_cons_self hwithin).release

namespace StubPage

theorem releaseAll_extended (h : Extended init (made ++ more) s) :
    Extended init more (releaseAll (Space.system limits) made s) := by
  induction made generalizing s with
  | nil => exact h
  | cons r made ih => exact ih h.release

theorem createPages_refused
    (hsizes : isPowerOfTwo (limits.guard.getD 8) = true → blank.length = size ∧ offset + 4 ≤ size)
    (hclean : Clean offset blank page) (hext : Extended init made s)
    (h : createPages (Space.system limits) offset size premultiply todo page made s =
      .error (.refused why) s') : Extended init [] s' := by
  have hstubs (hpower : isPowerOfTwo (limits.guard.getD 8) = true) {page : List Bytes}
      (hclean : Clean offset blank page) {first count : Nat} :
      ∀ stub ∈ (renumber offset premultiply first count page).take count, stub.length = size :=
    fun _ => length_of_mem_renumber hclean (hsizes hpower).1 (hsizes hpower).2
  induction todo generalizing page s made with
  | nil => exact (Action.pure_eq_error.mp h).elim
  | cons batch rest ih =>
    obtain ⟨first, count⟩ := batch
    rcases Action.bind_eq_error.mp h with hguard | ⟨memory, t, hpage, h⟩
    · obtain ⟨u, hpage, rfl⟩ := Action.guarded_eq_error.mp hguard
      have hu : Extended s [] u := System.installing_refused hext.laid
        (fun hpower => Nat.le_of_eq (length_flatten (hstubs hpower hclean))) hpage
      exact releaseAll_extended (hext.trans hu)
    · have hpage := Action.guarded_eq_ok.mp hpage
      have hpower := createPage_powerOfTwo hpage
      have ht := (createPage_ok hext.laid (hstubs hpower hclean) hpage).1
      obtain ⟨hblank, hfits⟩ := hsizes hpower
      rcases Action.bind_eq_error.mp h with hmore | ⟨_, _, -, hpure⟩
      · exact ih (hclean.renumber (hblank.symm ▸ hfits)) (hext.trans ht) hmore
      · exact (Action.pure_eq_error.mp hpure).elim

theorem createTable_refused (hs : s.Laid)
    (h : createTable (Space.system limits) slots template offset premultiply s =
      .error (.refused why) s') : Extended s [] s' := by
  rcases createTable_fails h with rfl | ⟨size, hsize, hfield, hpages⟩
  · exact .refl hs
  · refine createPages_refused (fun hpower => ?_) clean_replicate (Extended.refl hs) hpages
    have hle : template.length ≤ size := by
      rw [stubSize_ok hpower hsize]
      exact length_le_paddedLength hpower
    exact ⟨length_blankStub hle, Nat.le_trans hfield hle⟩

/-- A table that cannot be filled keeps its entries. The memory maps what it did with the bytes it
had, and as many allocations are live. -/
theorem fillTable_refused {f f' : Filling Space} (hs : f.memory.Laid)
    (h : fillTable (Space.system limits) template offset premultiply f = .error (.refused why) f') :
    f'.table = f.table ∧ Unchanged f.memory f'.memory := by
  obtain ⟨hcreate, htable⟩ := fillTable_error h
  exact ⟨htable, ((createTable_refused hs hcreate).alike hs).unchanged⟩

/-- Four guarded stubs on pages of two each, where the second page is one allocation too many. -/
theorem fillTable_refused_halfway :
    let limits : SpaceLimits := { maxAllocation := 32, allocationLimit := some 1, guard := some 16 }
    let code : Space := { regions := [(0x1000, [0x90, 0xC3])] }
    let f : Filling Space := ⟨[7, 8, 9, 10], code⟩
    ∃ why f', fillTable (Space.system limits) [0x90, 0x90, 0, 0, 0, 0, 0xC3, 0xCC] 2 false f =
        .error (.refused why) f' ∧ f'.memory.freeCount = 1 ∧ f'.memory.patchCount = 1 ∧
      f'.table = [7, 8, 9, 10] ∧ Unchanged code f'.memory := by
  intro limits code f
  have hlaid : f.memory.Laid := by constructor <;> decide
  obtain ⟨why, f', hfill, hfreed, hpatched⟩ := Action.exists_refused
    (x := fillTable (Space.system limits) [0x90, 0x90, 0, 0, 0, 0, 0xC3, 0xCC] 2 false) (s := f)
    (P := fun f' => f'.memory.freeCount = 1 ∧ f'.memory.patchCount = 1) (by decide +kernel)
  obtain ⟨htable, hmemory⟩ := fillTable_refused hlaid hfill
  exact ⟨why, f', hfill, hfreed, hpatched, htable, hmemory⟩

end StubPage

end Interpose
