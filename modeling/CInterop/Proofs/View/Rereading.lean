import CInterop.Proofs.View.Totality

/-!
# What is read can be stored and read again

A value that was read as a plain type is stored at every place that has room for it, and reads there
as it was (`View.read_write_read`). This includes bit-fields, which are written back with the rest
of their storage units, and unions of integers, the members of which are stored over each other. It
does not include wide characters of fewer than eight bytes that no other integer has: they are
stored with the bytes behind them (`View.spilled_not_restored`).
-/

namespace CInterop

namespace View

/-- What was read as a plain type can be written anywhere else, and reads there as it was, if no
integer in it is stored with bytes behind it. Something is read in every place that has room, if no
bit-field begins behind the word that is loaded. -/
theorem read_write_read {type : CType} (built : type.Built) (plain : type.isPlain = true)
    (own : type.spills = false) {origin target : View} {i j : Nat}
    (origin_inside : i + type.size ≤ origin.length)
    (target_inside : j + type.size ≤ target.length) (heap : Heap) :
    (type.strands = false → ∃ value, origin.read heap type i = .ok value)
      ∧ ∀ value, origin.read heap type i = .ok value →
        ∃ after, target.write type j value heap = (.ok (), after)
          ∧ target.read after type j = .ok value := by
  refine ⟨fun near => exists_read built near (CType.isVoid_of_isPlain plain) origin_inside,
    fun value read => ?_⟩
  have storable := built.storable plain own
  have origin_holds : Spot.Holds ⟨origin, i⟩ type.size := ⟨origin_inside⟩
  have target_holds : Spot.Holds ⟨target, j⟩ type.size := ⟨target_inside⟩
  obtain ⟨after, ran, _, stored⟩ := Spot.restores storable target_holds origin_holds read heap
  exact ⟨after, ran, stored⟩

/-- A struct of a byte, two bit-fields and a double in one half of a block is read there and stored
in the other half. -/
theorem read_write_read_mixed :
    let block : Block := ⟨0, 0, 32, false⟩
    ∃ value after, block.view.read .empty (.composite Layout.mixedLayout) 0 = .ok value
      ∧ block.view.write (.composite Layout.mixedLayout) 16 value .empty = (.ok (), after)
      ∧ block.view.read after (.composite Layout.mixedLayout) 16 = .ok value := by
  intro block
  have built : (CType.composite Layout.mixedLayout).Built :=
    .composite Layout.mixed_built Layout.compute_mixed
  have first : 0 + (CType.composite Layout.mixedLayout).size ≤ block.view.length := by decide
  have second : 16 + (CType.composite Layout.mixedLayout).size ≤ block.view.length := by decide
  obtain ⟨found, again⟩ := read_write_read built rfl rfl first second .empty
  obtain ⟨value, read⟩ := found rfl
  obtain ⟨after, ran, same⟩ := again value read
  exact ⟨value, after, read, ran, same⟩

end View

namespace Layout

/-- A wide character of three bytes, and a byte behind it. -/
def spilledDecls : List FieldDecl :=
  [⟨some "z", .stray 3, none⟩, ⟨some "a", .natural "uint8" .w8 false, none⟩]

/-- Where they are placed. -/
def spilledLayout : Layout :=
  { name := "Spilled", kind := .struct, packing := .natural
    fields := [⟨some "z", .stray 3, 0, none⟩, ⟨some "a", .natural "uint8" .w8 false, 3, none⟩]
    members := [⟨"z", .stray 3, 0, none⟩, ⟨"a", .natural "uint8" .w8 false, 3, none⟩]
    size := 6, align := 3 }

theorem spilled_built : (CType.composite spilledLayout).Built := by
  have byte := CType.Built.primitive (rfl : Primitive.uint8.type? .host = some _)
  have odd : (CType.stray 3).Built := CType.built_wide 3 (by decide)
  have built : ∀ decl ∈ spilledDecls, decl.type.Built := by
    simpa only [spilledDecls, List.forall_mem_cons] using ⟨odd, byte, by simp⟩
  exact .composite built (rfl : compute "Spilled" .struct spilledDecls .natural = .ok _)

end Layout

namespace View

/-- The wide character is stored after the byte, since their names are in this order, and takes the
byte with it: 7 reads as 0. -/
theorem spilled_not_restored :
    let block : Block := ⟨0, 0x10000000000, 12, false⟩
    let heap : Heap := { Heap.empty with memory := Memory.blank.store (block.base + 3) [7] }
    let value := Value.record [("a", .uint 7), ("z", .uint 0)]
    (CType.composite Layout.spilledLayout).Built
      ∧ block.view.read heap (.composite Layout.spilledLayout) 0 = .ok value
      ∧ ∃ after, block.view.write (.composite Layout.spilledLayout) 6 value heap = (.ok (), after)
        ∧ block.view.read after (.composite Layout.spilledLayout) 6
            = .ok (.record [("a", .uint 0), ("z", .uint 0)]) :=
  ⟨Layout.spilled_built, rfl, _, rfl, rfl⟩

end View

end CInterop
