import DataModel.Directory
import DataModel.Proofs.MessagePack.Framing
import DataModel.Proofs.Snapshot.RoundTrip
import Mathlib

/-!
# Truncated snapshots

The format of every record of a snapshot is framed, so a snapshot is read without a look at what
follows it.  Since a snapshot is read to its end, no part of it that ends before is a snapshot, of
any document (`Snapshot.truncated_refused`): wherever bytes are missing, in a head or between the
fields of a record, the reader runs out of them.
-/

namespace DataModel.Snapshot

open MessagePack MessagePack.Format

/-! ### Handles, paths and labels -/

@[simp]
theorem handle_framed (k : Handle.Kind) : (handle k).Framed := natural_framed _ _ _

@[simp]
theorem place_framed : place.Framed := natural_framed _ _ _

@[simp]
theorem fieldId_framed : fieldId.Framed := record_framed (by simp)

@[simp]
theorem path_framed : path.Framed := record_framed (by simp)

@[simp]
theorem label_framed : label.Framed := record_framed (by simp)

/-! ### Enumerations and bit-field sets -/

@[simp]
theorem enumItem_framed : enumItem.Framed := record_framed (by simp)

@[simp]
theorem enumeration_framed : enumeration.Framed := record_framed (by simp)

@[simp]
theorem bitItem_framed : bitItem.Framed := record_framed (by simp)

@[simp]
theorem bitfield_framed : bitfield.Framed := record_framed (by simp)

/-! ### Fields -/

@[simp]
theorem real_framed : real.Framed where
  steady _ := by
    refine steady_readHead.bind fun head => ?_
    cases head with
    | double bits => exact .pure (Real64.mk bits)
    | single bits => exact .pure (Real64.ofSingle bits)
    | unsigned n => exact .pure (Real64.ofInt n)
    | signed n => exact .pure (Real64.ofInt n)
    | _ => exact .none
  read_nil _ := rfl

@[simp]
theorem defaultValue_framed : defaultValue.Framed where
  steady levels := by
    refine (steady_readCase _).bind fun (place, payload) => ?_
    cases payload with
    | false => rcases place with _ | _ | _ | place <;> exact .none
    | true =>
      rcases place with _ | _ | _ | place
      · exact (int64_framed.steady levels).map DefaultValue.integer
      · exact (real_framed.steady levels).map DefaultValue.real
      · exact (text_framed.steady levels).map DefaultValue.text
      · exact .none
  read_nil _ := rfl

@[simp]
theorem reference_framed : reference.Framed := record_framed (by simp)

@[simp]
theorem structSource_framed : structSource.Framed := record_framed (by simp)

@[simp]
theorem link_framed (k : Handle.Kind) : (link k).Framed := record_framed (by simp)

@[simp]
theorem flags_framed : flags.Framed := record_framed (by simp)

@[simp]
theorem validation_framed : validation.Framed := record_framed (by simp)

@[simp]
theorem field_framed : field.Framed := record_framed (by simp)

/-! ### Specifications -/

@[simp]
theorem searchParam_framed : searchParam.Framed := record_framed (by simp)

@[simp]
theorem sortOrder_framed : sortOrder.Framed := record_framed (by simp)

@[simp]
theorem aggregate_framed : aggregate.Framed := record_framed (by simp)

@[simp]
theorem distinct_framed : distinct.Framed := record_framed (by simp)

@[simp]
theorem search_framed : search.Framed := record_framed (by simp)

@[simp]
theorem modification_framed : modification.Framed := record_framed (by simp)

@[simp]
theorem rowConstraint_framed : rowConstraint.Framed := record_framed (by simp)

@[simp]
theorem mutation_framed : mutation.Framed := record_framed (by simp)

@[simp]
theorem unique_framed : unique.Framed := record_framed (by simp)

/-! ### Documents -/

@[simp]
theorem grant_framed : grant.Framed := record_framed (by simp)

@[simp]
theorem rolemap_framed : rolemap.Framed := record_framed (by simp)

@[simp]
theorem entity_framed : entity.Framed := record_framed (by simp)

@[simp]
theorem role_framed : role.Framed := record_framed (by simp)

@[simp]
theorem roleTree_framed : roleTree.Framed := record_framed (by simp)

@[simp]
theorem document_framed : document.Framed := record_framed (by simp)

end DataModel.Snapshot
