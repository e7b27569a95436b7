import PagedHeap.Bytes

/-!
# Numbers of pages, files and records

Pages of a file are numbered from zero; page zero belongs to the file itself. The largest page
number is not the number of a page: as a link it marks the end of a chain (`PageId.ofLink?`).
A record is addressed by its page and its slot there.
-/

namespace PagedHeap

/-- The number of a page within its file. -/
structure PageId where
  /-- The position of the page in the file. -/
  val : UInt32
deriving DecidableEq

namespace PageId

/-- The number that stands for "no page" in a stored link. -/
def invalid : PageId := ⟨0xFFFFFFFF⟩

/-- Page zero, which the file keeps for its own header. -/
def header : PageId := ⟨0⟩

/-- Whether this is the number of a page at all. -/
def isValid (p : PageId) : Bool := p != invalid

/-- Reads a stored link. -/
def ofLink? (link : UInt32) : Option PageId := if link = invalid.val then none else some ⟨link⟩

/-- The stored form of an optional link. -/
def toLink (link : Option PageId) : UInt32 := (link.getD invalid).val

/-- The text of a page number in messages. -/
def text (p : PageId) : String := if p = invalid then "INVALID" else toString p.val.toNat

@[simp] theorem toLink_none : toLink none = invalid.val := rfl

@[simp] theorem toLink_some (p : PageId) : toLink (some p) = p.val := rfl

@[simp] theorem ofLink?_invalid : ofLink? invalid.val = none := rfl

/-- A link is read back as it was stored, unless it links to the number of no page. -/
theorem ofLink?_toLink {link : Option PageId} (valid : link ≠ some invalid) :
    ofLink? (toLink link) = link := by
  cases link with
  | none => rfl
  | some p =>
    have different : p.val ≠ invalid.val := fun same => valid (by cases p; cases same; rfl)
    simp [ofLink?, different]

/-- A stored link is written back as it was read. -/
theorem toLink_ofLink? (link : UInt32) : toLink (ofLink? link) = link := by
  unfold ofLink?
  split
  · next h => rw [toLink_none, h]
  · rfl

end PageId

/-- The number under which a file is open. -/
structure FileId where
  /-- Files are numbered in the order in which they are first opened or made. -/
  val : UInt32
deriving DecidableEq

/-- The text of a file number in messages. -/
def FileId.text (f : FileId) : String := "file#" ++ toString f.val.toNat

/-- The number of a slot in a page's directory. -/
abbrev SlotId := UInt16

/-- The address of a record: its page and its slot there. -/
structure RecordId where
  /-- The page that holds the record. -/
  page : PageId
  /-- The directory entry of the record on that page. -/
  slot : SlotId
deriving DecidableEq

namespace RecordId

/-- Records are ordered by page, then by slot. -/
def compare (a b : RecordId) : Ordering :=
  (Ord.compare a.page.val.toNat b.page.val.toNat).then
    (Ord.compare a.slot.toNat b.slot.toNat)

/-- The text of a record's address. -/
def text (r : RecordId) : String := "(" ++ r.page.text ++ ", " ++ toString r.slot.toNat ++ ")"

end RecordId

end PagedHeap
