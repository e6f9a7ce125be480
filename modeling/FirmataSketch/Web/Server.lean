import FirmataSketch.Catalog.Shipped
import FirmataSketch.Web.Framework

/-! The web server. It makes the shipped catalog for the first request that needs it and keeps it. -/

namespace FirmataSketch.Web

open Disk (PathName)

/-- A request with the fields of its body. -/
structure Inquiry where
  route : Route
  fields : List (String × Value) := []

/-- A sketch needs the catalog once its selection is made. -/
def Inquiry.needsCatalog (q : Inquiry) (rules : Rules) : Bool :=
  match q.route with
  | .features => true
  | .defaults => false
  | .generate | .download =>
    match Request.ofFields q.fields rules with
    | .ok r => r.selection.isOk
    | .error _ => false

/-- Only requests for a sketch have a body. -/
def Inquiry.isRead (q : Inquiry) (framework : Framework) : Bool :=
  match q.route with
  | .features | .defaults => true
  | .generate | .download => framework.reads q.fields

structure Server where
  home : PathName
  /-- The catalog, if a request has needed it. -/
  kept : Option Catalog := none
  framework : Framework := .bare

namespace Server

def catalog (s : Server) : Catalog := s.kept.getD (Catalog.shipped s.home)

def answer (s : Server) (clock : Clock) (q : Inquiry) : Traced Answer × Server :=
  (respond s.catalog clock q.fields q.route s.framework.rules,
    if q.needsCatalog s.framework.rules then { s with kept := some s.catalog } else s)

/-- A request that is read is answered. -/
def reply (s : Server) (clock : Clock) (q : Inquiry) : Traced Reply × Server :=
  if q.isRead s.framework then
    let (t, next) := s.answer clock q
    (⟨t.events, t.result.map (s.framework.send q.fields)⟩, next)
  else (⟨[], .ok .unread⟩, s)

/-- Replies to requests one after the other. -/
def replies (s : Server) (clock : Clock) : List Inquiry → List (Traced Reply)
  | [] => []
  | q :: qs => (s.reply clock q).1 :: (s.reply clock q).2.replies clock qs

end Server

end FirmataSketch.Web
