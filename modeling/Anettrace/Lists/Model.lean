import Anettrace.Library.Cycles

/-!
# The lists of the program

The functions of `utils/list.h` on `struct list_head`. The links of all the `list_head`s in memory
are one value, and the address of a `list_head` is of any type; an entry is known by the address of
its `list_head`. A loop over a list has a number of rounds, and `none` stands for one that is not
done then.
-/

namespace Anettrace.Lists

open Library.Cycles

/-- `LIST_POISON1` and `LIST_POISON2`. -/
structure Poison (α : Type*) where
  next : α
  prev : α

variable {α : Type*} [DecidableEq α]

def initListHead (list : α) (links : Links α) : Links α :=
  (links.setNext list list).setPrev list list

def listAddBetween (new prev next : α) (links : Links α) : Links α :=
  (((links.setPrev next new).setNext new next).setPrev new prev).setNext prev new

def listAdd (new head : α) (links : Links α) : Links α :=
  listAddBetween new head (links.next head) links

def listAddTail (new head : α) (links : Links α) : Links α :=
  listAddBetween new (links.prev head) head links

def listDelBetween (prev next : α) (links : Links α) : Links α :=
  (links.setPrev next prev).setNext prev next

def listDelEntry (entry : α) (links : Links α) : Links α :=
  listDelBetween (links.prev entry) (links.next entry) links

def listDel (poison : Poison α) (entry : α) (links : Links α) : Links α :=
  ((listDelEntry entry links).setNext entry poison.next).setPrev entry poison.prev

def listDelInit (entry : α) (links : Links α) : Links α :=
  initListHead entry (listDelEntry entry links)

def listMove (list head : α) (links : Links α) : Links α :=
  listAdd list head (listDelEntry list links)

def listMoveTail (list head : α) (links : Links α) : Links α :=
  listAddTail list head (listDelEntry list links)

def listEmpty (head : α) (links : Links α) : Bool :=
  links.next head = head

def listSpliceBetween (list prev next : α) (links : Links α) : Links α :=
  let first := links.next list
  let last := links.prev list
  (((links.setPrev first prev).setNext prev first).setNext last next).setPrev next last

def listSplice (list head : α) (links : Links α) : Links α :=
  if listEmpty list links then links else listSpliceBetween list head (links.next head) links

def listSpliceTail (list head : α) (links : Links α) : Links α :=
  if listEmpty list links then links else listSpliceBetween list (links.prev head) head links

def listSpliceInit (list head : α) (links : Links α) : Links α :=
  if listEmpty list links then links
  else initListHead list (listSpliceBetween list head (links.next head) links)

def listIsSingular (head : α) (links : Links α) : Bool :=
  !listEmpty head links && links.next head = links.prev head

def listIsFirst (list head : α) (links : Links α) : Bool :=
  links.prev list = head

def listIsLast (list head : α) (links : Links α) : Bool :=
  links.next list = head

/-- The entries that `list_for_each_entry` visits from `pos` on. -/
def listForEachEntry (links : Links α) (head : α) : Nat → α → Option (List α)
  | 0, pos => if pos = head then some [] else none
  | rounds + 1, pos =>
      if pos = head then some []
      else (listForEachEntry links head rounds (links.next pos)).map (pos :: ·)

/-- The entries that `list_for_each_entry_reverse` visits from `pos` on. -/
def listForEachEntryReverse (links : Links α) (head : α) : Nat → α → Option (List α)
  | 0, pos => if pos = head then some [] else none
  | rounds + 1, pos =>
      if pos = head then some []
      else (listForEachEntryReverse links head rounds (links.prev pos)).map (pos :: ·)

/-! ## Joins -/

theorem listAddBetween_eq (new prev next : α) (links : Links α) :
    listAddBetween new prev next links = (links.join new next).join prev new := rfl

theorem listDelBetween_eq (prev next : α) (links : Links α) :
    listDelBetween prev next links = links.join prev next := rfl

theorem listSpliceBetween_eq (list prev next : α) (links : Links α) :
    listSpliceBetween list prev next links =
      (links.join prev (links.next list)).join (links.prev list) next := rfl

theorem initListHead_cycle (list : α) (links : Links α) :
    Cycle (initListHead list links) list [] := by
  refine ⟨List.IsChain.cons_cons ⟨?_, ?_⟩ (List.IsChain.singleton list), List.nodup_singleton list⟩
  · exact Function.update_self _ _ _
  · exact Function.update_self _ _ _

end Anettrace.Lists
