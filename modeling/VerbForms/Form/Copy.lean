import VerbForms.Json.Print

/-!
# Copying

A copy of the page takes the value of the first visible panel as JSON text. It is all or nothing: either
the event carries one text and its default is prevented, or the event stays as it was.
-/

namespace VerbForms.Form

/-- What a panel gives when it is asked for its value. -/
inductive Offer where
  | value (value : Json)
  /-- Something that has no JSON text. -/
  | unprintable
  /-- An error of a kind that a copy expects. -/
  | refused
  /-- Any other error. -/
  | crashed (kind description : String)

/-- A panel as far as copying goes. -/
structure Exhibit where
  verb : String
  visible : Bool
  offer : Offer

/-- A copy event. -/
structure CopyEvent where
  prevented : Bool
  data : List (String × String)
  deriving DecidableEq, Repr

/-- An event that nobody has handled. -/
def CopyEvent.fresh : CopyEvent := ⟨false, []⟩

/-- An error that leaves a copy. -/
structure CopyCrash where
  kind : String
  description : String
  deriving DecidableEq, Repr

/-- The media type of copies. -/
def copyMime : String := "application/json"

/-- The first visible panel. -/
def visiblePanel? (panels : List Exhibit) : Option Exhibit := panels.find? Exhibit.visible

/-- Whether a copy was handled, and the event after it. -/
def copy (mime : String) (panels : List Exhibit) (event : CopyEvent) : Except CopyCrash Bool × CopyEvent :=
  match (visiblePanel? panels).map Exhibit.offer with
  | some (.value value) => (.ok true, ⟨true, Assoc.put event.data mime value.compact⟩)
  | some (.crashed kind description) => (.error ⟨kind, description⟩, event)
  | _ => (.ok false, event)

end VerbForms.Form
