import FirmataSketch.Catalog.Shipped

/-! The index of the shipped catalog. -/

namespace FirmataSketch.Catalog

open Disk (PathName)

/-- The shipped features under their names. -/
def shippedIndex (home : PathName) : Index :=
  ⟨supplied.map fun s => (.text s.name, .text s.name, s.feature (home.child "catalog"))⟩

theorem shipped_index (home : PathName) : (shipped home).index = .ok (shippedIndex home) := rfl

end FirmataSketch.Catalog
