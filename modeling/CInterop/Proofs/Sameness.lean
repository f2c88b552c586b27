import CInterop.CType

/-!
# Types that are the same

Every type is the same as itself. What sameness of types says about the shape of the other type:
scalars are equal up to the spelling of integers, pointers have equal widths and composites equal
sizes.
-/

namespace CInterop

namespace CType

theorem sameFields_refl {fields : List Field}
    (each : ∀ field ∈ fields, field.type.same field.type = true) :
    sameFields fields fields = true := by
  induction fields with
  | nil => rfl
  | cons first rest ih =>
    obtain ⟨own, others⟩ := List.forall_mem_cons.mp each
    simp [sameFields, own, ih others]

/-- The type of a field is smaller than the composite. -/
theorem sizeOf_field_lt {layout : Layout} {field : Field} (mem : field ∈ layout.fields) :
    sizeOf field.type < sizeOf (composite layout) := by
  have listed := List.sizeOf_lt_of_mem mem
  obtain ⟨name, kind, packing, fields, members, size, align⟩ := layout
  obtain ⟨label, type, offset, bits⟩ := field
  simp only [composite.sizeOf_spec, LayoutOf.mk.sizeOf_spec, Placed.mk.sizeOf_spec] at listed ⊢
  omega

theorem same_refl : ∀ type : CType, type.same type = true
  | .void => rfl
  | .bool => rfl
  | .int .. => by simp [same]
  | .stray .. => by simp [same]
  | .float .. => by simp [same]
  | .pointer .untyped _ => by simp [same]
  | .pointer (.typed target) _ => by simp [same, same_refl target]
  | .pointer .cstring _ => by simp [same]
  | .pointer (.wstring _) _ => by simp [same]
  | .array element _ => by simp [same, same_refl element]
  | .composite layout => by
    have each : ∀ field ∈ layout.fields, field.type.same field.type = true :=
      fun field mem => same_refl field.type
    simp [same, sameFields_refl each]
termination_by type => sizeOf type
decreasing_by
  · simp only [pointer.sizeOf_spec, TargetOf.typed.sizeOf_spec]
    omega
  · simp only [array.sizeOf_spec]
    omega
  · exact sizeOf_field_lt mem

variable {other : CType}

theorem eq_of_same_bool (same : (other == .bool) = true) : other = .bool := by
  cases other with
  | bool => rfl
  | pointer target => cases target <;> cases same
  | _ => cases same

theorem eq_of_same_int {name : String} {width : Width} {signed : Bool} {align : Nat}
    (same : (other == .int name width signed align) = true) :
    ∃ spelling, other = .int spelling width signed align := by
  cases other with
  | int spelling width' signed' align' =>
    replace same : (width' = width && signed' == signed && align' == align) = true := same
    simp only [Bool.and_eq_true, decide_eq_true_eq, beq_iff_eq] at same
    obtain ⟨⟨rfl, rfl⟩, rfl⟩ := same
    exact ⟨spelling, rfl⟩
  | pointer target => cases target <;> cases same
  | _ => cases same

theorem eq_of_same_stray {bytes : Nat} (same : (other == .stray bytes) = true) :
    other = .stray bytes := by
  cases other with
  | stray bytes' =>
    replace same : (bytes' == bytes) = true := same
    rw [beq_iff_eq.mp same]
  | pointer target => cases target <;> cases same
  | _ => cases same

theorem eq_of_same_float {precision : Precision} {align : Nat}
    (same : (other == .float precision align) = true) : other = .float precision align := by
  cases other with
  | float precision' align' =>
    replace same : (precision' = precision && align' == align) = true := same
    simp only [Bool.and_eq_true, decide_eq_true_eq, beq_iff_eq] at same
    obtain ⟨rfl, rfl⟩ := same
    rfl
  | pointer target => cases target <;> cases same
  | _ => cases same

theorem eq_of_same_pointer {target : Target} {width : Width}
    (same : (other == .pointer target width) = true) :
    ∃ target', other = .pointer target' width := by
  cases other with
  | pointer target' width' =>
    have widths : width' = width := by
      replace same : (pointer target' width').same (.pointer target width) = true := same
      cases target' <;> cases target <;> simp_all [CType.same]
    exact ⟨target', widths ▸ rfl⟩
  | _ => cases same

theorem eq_of_same_composite {layout : Layout} (same : (other == .composite layout) = true) :
    ∃ layout', other = .composite layout' ∧ layout'.size = layout.size := by
  cases other with
  | composite layout' =>
    replace same : (composite layout').same (.composite layout) = true := same
    simp only [CType.same, Bool.and_eq_true, beq_iff_eq] at same
    exact ⟨layout', rfl, same.1.2⟩
  | pointer target => cases target <;> cases same
  | _ => cases same

theorem eq_of_same_array {element : CType} {count : Nat}
    (same : (other == .array element count) = true) :
    ∃ element', other = .array element' count ∧ (element' == element) = true := by
  cases other with
  | array element' count' =>
    replace same : (element'.same element && count' == count) = true := same
    simp only [Bool.and_eq_true, beq_iff_eq] at same
    obtain ⟨elements, rfl⟩ := same
    exact ⟨element', rfl, elements⟩
  | pointer target => cases target <;> cases same
  | _ => cases same

/-- Types that are the same take as many bytes. -/
theorem size_eq_of_same : ∀ {type other : CType}, (other == type) = true → other.size = type.size
  | .void, other, same => by
    cases other with
    | void => rfl
    | pointer target => cases target <;> cases same
    | _ => cases same
  | .bool, _, same => by rw [eq_of_same_bool same]
  | .int .., _, same => by
    obtain ⟨_, rfl⟩ := eq_of_same_int same
    rfl
  | .stray _, _, same => by rw [eq_of_same_stray same]
  | .float .., _, same => by rw [eq_of_same_float same]
  | .pointer .., _, same => by
    obtain ⟨_, rfl⟩ := eq_of_same_pointer same
    rfl
  | .array element count, _, same => by
    obtain ⟨element', rfl, elements⟩ := eq_of_same_array same
    exact congrArg (· * count) (size_eq_of_same elements)
  | .composite _, _, same => by
    obtain ⟨_, rfl, sizes⟩ := eq_of_same_composite same
    exact sizes
termination_by structural type => type

end CType

end CInterop
