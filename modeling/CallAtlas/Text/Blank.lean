import CallAtlas.Text.CharClass

/-!
# White space

The characters of the property `White_Space` (Unicode 17), from the tabulator to the ideographic
space.
-/

namespace CallAtlas

/-- White space. -/
def CharClass.blank : CharClass where
  ranges := [
    (9, 13), (32, 32), (133, 133), (160, 160), (5760, 5760), (8192, 8202), (8232, 8233),
    (8239, 8239), (8287, 8287), (12288, 12288)]

end CallAtlas
