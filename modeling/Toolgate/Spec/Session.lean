import Toolgate.Spec.Store

/-!
# Sessions of loading

Descriptions are loaded from one store while files come and go, web addresses answer this or that,
and time goes on.

## Main definitions

* `Step`: what happens in a session
* `Load`: a load, what could be read at that time, and what it came to
* `Scene.perform`, `Scene.run`: the loads of a session
-/

namespace Toolgate.Spec

/-- What happens in a session. -/
inductive Step where
  | write (name text : String)
  | remove (name : String)
  | serve (address : String) (page : Page)
  /-- So many seconds go by. -/
  | advance (seconds : Float)
  | load (location : String)

/-- A load. -/
structure Load where
  location : String
  time : Float
  /-- What the location held at that time. -/
  reading : Except Yaml.Fault (Option Json)
  result : Except Yaml.Fault (Option Kept)

/-- Where a session stands. -/
structure Scene where
  store : Store
  shelves : Shelves
  now : Float

namespace Scene

/-- A load, and the store after it. One that ends in a fault leaves the store as it was. -/
def load (scene : Scene) (location : String) : Load × Store :=
  let made (result : Except Yaml.Fault (Option Kept)) : Load :=
    ⟨location, scene.now, scene.shelves.read location, result⟩
  match scene.store.load scene.shelves scene.now location with
  | .ok (kept?, store) => (made (.ok kept?), store)
  | .error fault => (made (.error fault), scene.store)

/-- One step of a session, and the load if it is one. -/
def perform (scene : Scene) : Step → Option Load × Scene
  | .write name text => (none, { scene with shelves := scene.shelves.write name text })
  | .remove name => (none, { scene with shelves := scene.shelves.remove name })
  | .serve address page => (none, { scene with shelves := scene.shelves.serve address page })
  | .advance seconds => (none, { scene with now := scene.now + seconds })
  | .load location =>
    let (load, store) := scene.load location
    (some load, { scene with store })

/-- The loads of a session, in their order. -/
def run (scene : Scene) : List Step → List Load
  | [] => []
  | step :: rest =>
    let (load?, next) := scene.perform step
    load?.toList ++ next.run rest

end Scene

end Toolgate.Spec
