import PagedHeap.Heap.File
import PagedHeap.Text.Quoted

/-!
# Describing an open heap file

The text that shows an open heap file to a developer: its name and where it stands.
-/

namespace PagedHeap

/-- A value that may be absent. -/
def describeOption {α : Type} (describe : α → String) : Option α → String
  | none => "None"
  | some a => "Some(" ++ describe a ++ ")"

/-- A page number with its type. -/
def PageId.describe (p : PageId) : String := "PageId(" ++ toString p.val.toNat ++ ")"

/-- A structure with the given fields. -/
def describeFields (name : String) (fields : List (String × String)) : String :=
  name ++ " \x7b " ++
    String.intercalate ", " (fields.map fun (field, value) => field ++ ": " ++ value) ++
    " \x7d"

/-- A record's address with its type. -/
def RecordId.describe (r : RecordId) : String :=
  describeFields "RecordId" [("page_id", r.page.describe), ("slot", toString r.slot.toNat)]

/-- An open heap file. -/
def HeapFile.describe (h : HeapFile) : String :=
  describeFields "HeapFile"
    [("name", quoted h.name),
      ("current_page_id", describeOption PageId.describe h.position),
      ("current_record", describeOption RecordId.describe h.record)]

end PagedHeap
