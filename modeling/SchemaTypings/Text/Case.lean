import SchemaTypings.Text.CodePoint
import SchemaTypings.Text.Edges

/-!
Letter case over all scripts. A lower-case form may depend on its neighbours (a capital sigma that
ends a word), and an upper-case form may be several code points.
-/

namespace SchemaTypings

/-- A run of code points whose other case lies at one distance: `count` of them from `first` on,
`step` apart. -/
structure CaseRun where
  first : Nat
  step : Nat
  count : Nat
  shift : Int

/-- The code point that the run maps `n` to. -/
def CaseRun.map? (run : CaseRun) (n : Nat) : Option Nat :=
  if run.first ≤ n && (n - run.first) % run.step = 0 && (n - run.first) / run.step < run.count then
    some (n + run.shift).toNat
  else none

/-- Where the lower-case form is one other code point. -/
def lowerRuns : List CaseRun :=
  [⟨65, 1, 26, 32⟩, ⟨192, 1, 23, 32⟩, ⟨216, 1, 7, 32⟩, ⟨256, 2, 24, 1⟩, ⟨306, 2, 3, 1⟩,
   ⟨313, 2, 8, 1⟩, ⟨330, 2, 23, 1⟩, ⟨376, 1, 1, -121⟩, ⟨377, 2, 3, 1⟩, ⟨385, 1, 1, 210⟩,
   ⟨386, 2, 2, 1⟩, ⟨390, 1, 1, 206⟩, ⟨391, 1, 1, 1⟩, ⟨393, 1, 2, 205⟩, ⟨395, 1, 1, 1⟩,
   ⟨398, 1, 1, 79⟩, ⟨399, 1, 1, 202⟩, ⟨400, 1, 1, 203⟩, ⟨401, 1, 1, 1⟩, ⟨403, 1, 1, 205⟩,
   ⟨404, 1, 1, 207⟩, ⟨406, 1, 1, 211⟩, ⟨407, 1, 1, 209⟩, ⟨408, 1, 1, 1⟩, ⟨412, 1, 1, 211⟩,
   ⟨413, 1, 1, 213⟩, ⟨415, 1, 1, 214⟩, ⟨416, 2, 3, 1⟩, ⟨422, 1, 1, 218⟩, ⟨423, 1, 1, 1⟩,
   ⟨425, 1, 1, 218⟩, ⟨428, 1, 1, 1⟩, ⟨430, 1, 1, 218⟩, ⟨431, 1, 1, 1⟩, ⟨433, 1, 2, 217⟩,
   ⟨435, 2, 2, 1⟩, ⟨439, 1, 1, 219⟩, ⟨440, 1, 1, 1⟩, ⟨444, 1, 1, 1⟩, ⟨452, 1, 1, 2⟩,
   ⟨453, 1, 1, 1⟩, ⟨455, 1, 1, 2⟩, ⟨456, 1, 1, 1⟩, ⟨458, 1, 1, 2⟩, ⟨459, 2, 9, 1⟩, ⟨478, 2, 9, 1⟩,
   ⟨497, 1, 1, 2⟩, ⟨498, 2, 2, 1⟩, ⟨502, 1, 1, -97⟩, ⟨503, 1, 1, -56⟩, ⟨504, 2, 20, 1⟩,
   ⟨544, 1, 1, -130⟩, ⟨546, 2, 9, 1⟩, ⟨570, 1, 1, 10795⟩, ⟨571, 1, 1, 1⟩, ⟨573, 1, 1, -163⟩,
   ⟨574, 1, 1, 10792⟩, ⟨577, 1, 1, 1⟩, ⟨579, 1, 1, -195⟩, ⟨580, 1, 1, 69⟩, ⟨581, 1, 1, 71⟩,
   ⟨582, 2, 5, 1⟩, ⟨880, 2, 2, 1⟩, ⟨886, 1, 1, 1⟩, ⟨895, 1, 1, 116⟩, ⟨902, 1, 1, 38⟩,
   ⟨904, 1, 3, 37⟩, ⟨908, 1, 1, 64⟩, ⟨910, 1, 2, 63⟩, ⟨913, 1, 17, 32⟩, ⟨931, 1, 9, 32⟩,
   ⟨975, 1, 1, 8⟩, ⟨984, 2, 12, 1⟩, ⟨1012, 1, 1, -60⟩, ⟨1015, 1, 1, 1⟩, ⟨1017, 1, 1, -7⟩,
   ⟨1018, 1, 1, 1⟩, ⟨1021, 1, 3, -130⟩, ⟨1024, 1, 16, 80⟩, ⟨1040, 1, 32, 32⟩, ⟨1120, 2, 17, 1⟩,
   ⟨1162, 2, 27, 1⟩, ⟨1216, 1, 1, 15⟩, ⟨1217, 2, 7, 1⟩, ⟨1232, 2, 48, 1⟩, ⟨1329, 1, 38, 48⟩,
   ⟨4256, 1, 38, 7264⟩, ⟨4295, 1, 1, 7264⟩, ⟨4301, 1, 1, 7264⟩, ⟨5024, 1, 80, 38864⟩,
   ⟨5104, 1, 6, 8⟩, ⟨7312, 1, 43, -3008⟩, ⟨7357, 1, 3, -3008⟩, ⟨7680, 2, 75, 1⟩,
   ⟨7838, 1, 1, -7615⟩, ⟨7840, 2, 48, 1⟩, ⟨7944, 1, 8, -8⟩, ⟨7960, 1, 6, -8⟩, ⟨7976, 1, 8, -8⟩,
   ⟨7992, 1, 8, -8⟩, ⟨8008, 1, 6, -8⟩, ⟨8025, 2, 4, -8⟩, ⟨8040, 1, 8, -8⟩, ⟨8072, 1, 8, -8⟩,
   ⟨8088, 1, 8, -8⟩, ⟨8104, 1, 8, -8⟩, ⟨8120, 1, 2, -8⟩, ⟨8122, 1, 2, -74⟩, ⟨8124, 1, 1, -9⟩,
   ⟨8136, 1, 4, -86⟩, ⟨8140, 1, 1, -9⟩, ⟨8152, 1, 2, -8⟩, ⟨8154, 1, 2, -100⟩, ⟨8168, 1, 2, -8⟩,
   ⟨8170, 1, 2, -112⟩, ⟨8172, 1, 1, -7⟩, ⟨8184, 1, 2, -128⟩, ⟨8186, 1, 2, -126⟩, ⟨8188, 1, 1, -9⟩,
   ⟨8486, 1, 1, -7517⟩, ⟨8490, 1, 1, -8383⟩, ⟨8491, 1, 1, -8262⟩, ⟨8498, 1, 1, 28⟩,
   ⟨8544, 1, 16, 16⟩, ⟨8579, 1, 1, 1⟩, ⟨9398, 1, 26, 26⟩, ⟨11264, 1, 48, 48⟩, ⟨11360, 1, 1, 1⟩,
   ⟨11362, 1, 1, -10743⟩, ⟨11363, 1, 1, -3814⟩, ⟨11364, 1, 1, -10727⟩, ⟨11367, 2, 3, 1⟩,
   ⟨11373, 1, 1, -10780⟩, ⟨11374, 1, 1, -10749⟩, ⟨11375, 1, 1, -10783⟩, ⟨11376, 1, 1, -10782⟩,
   ⟨11378, 1, 1, 1⟩, ⟨11381, 1, 1, 1⟩, ⟨11390, 1, 2, -10815⟩, ⟨11392, 2, 50, 1⟩, ⟨11499, 2, 2, 1⟩,
   ⟨11506, 1, 1, 1⟩, ⟨42560, 2, 23, 1⟩, ⟨42624, 2, 14, 1⟩, ⟨42786, 2, 7, 1⟩, ⟨42802, 2, 31, 1⟩,
   ⟨42873, 2, 2, 1⟩, ⟨42877, 1, 1, -35332⟩, ⟨42878, 2, 5, 1⟩, ⟨42891, 1, 1, 1⟩,
   ⟨42893, 1, 1, -42280⟩, ⟨42896, 2, 2, 1⟩, ⟨42902, 2, 10, 1⟩, ⟨42922, 1, 1, -42308⟩,
   ⟨42923, 1, 1, -42319⟩, ⟨42924, 1, 1, -42315⟩, ⟨42925, 1, 1, -42305⟩, ⟨42926, 1, 1, -42308⟩,
   ⟨42928, 1, 1, -42258⟩, ⟨42929, 1, 1, -42282⟩, ⟨42930, 1, 1, -42261⟩, ⟨42931, 1, 1, 928⟩,
   ⟨42932, 2, 8, 1⟩, ⟨42948, 1, 1, -48⟩, ⟨42949, 1, 1, -42307⟩, ⟨42950, 1, 1, -35384⟩,
   ⟨42951, 2, 2, 1⟩, ⟨42960, 1, 1, 1⟩, ⟨42966, 2, 2, 1⟩, ⟨42997, 1, 1, 1⟩, ⟨65313, 1, 26, 32⟩,
   ⟨66560, 1, 40, 40⟩, ⟨66736, 1, 36, 40⟩, ⟨66928, 1, 11, 39⟩, ⟨66940, 1, 15, 39⟩,
   ⟨66956, 1, 7, 39⟩, ⟨66964, 1, 2, 39⟩, ⟨68736, 1, 51, 64⟩, ⟨71840, 1, 32, 32⟩,
   ⟨93760, 1, 32, 32⟩, ⟨125184, 1, 34, 34⟩]

/-- Where the upper-case form is one other code point. -/
def upperRuns : List CaseRun :=
  [⟨97, 1, 26, -32⟩, ⟨181, 1, 1, 743⟩, ⟨224, 1, 23, -32⟩, ⟨248, 1, 7, -32⟩, ⟨255, 1, 1, 121⟩,
   ⟨257, 2, 24, -1⟩, ⟨305, 1, 1, -232⟩, ⟨307, 2, 3, -1⟩, ⟨314, 2, 8, -1⟩, ⟨331, 2, 23, -1⟩,
   ⟨378, 2, 3, -1⟩, ⟨383, 1, 1, -300⟩, ⟨384, 1, 1, 195⟩, ⟨387, 2, 2, -1⟩, ⟨392, 1, 1, -1⟩,
   ⟨396, 1, 1, -1⟩, ⟨402, 1, 1, -1⟩, ⟨405, 1, 1, 97⟩, ⟨409, 1, 1, -1⟩, ⟨410, 1, 1, 163⟩,
   ⟨414, 1, 1, 130⟩, ⟨417, 2, 3, -1⟩, ⟨424, 1, 1, -1⟩, ⟨429, 1, 1, -1⟩, ⟨432, 1, 1, -1⟩,
   ⟨436, 2, 2, -1⟩, ⟨441, 1, 1, -1⟩, ⟨445, 1, 1, -1⟩, ⟨447, 1, 1, 56⟩, ⟨453, 1, 1, -1⟩,
   ⟨454, 1, 1, -2⟩, ⟨456, 1, 1, -1⟩, ⟨457, 1, 1, -2⟩, ⟨459, 1, 1, -1⟩, ⟨460, 1, 1, -2⟩,
   ⟨462, 2, 8, -1⟩, ⟨477, 1, 1, -79⟩, ⟨479, 2, 9, -1⟩, ⟨498, 1, 1, -1⟩, ⟨499, 1, 1, -2⟩,
   ⟨501, 1, 1, -1⟩, ⟨505, 2, 20, -1⟩, ⟨547, 2, 9, -1⟩, ⟨572, 1, 1, -1⟩, ⟨575, 1, 2, 10815⟩,
   ⟨578, 1, 1, -1⟩, ⟨583, 2, 5, -1⟩, ⟨592, 1, 1, 10783⟩, ⟨593, 1, 1, 10780⟩, ⟨594, 1, 1, 10782⟩,
   ⟨595, 1, 1, -210⟩, ⟨596, 1, 1, -206⟩, ⟨598, 1, 2, -205⟩, ⟨601, 1, 1, -202⟩, ⟨603, 1, 1, -203⟩,
   ⟨604, 1, 1, 42319⟩, ⟨608, 1, 1, -205⟩, ⟨609, 1, 1, 42315⟩, ⟨611, 1, 1, -207⟩,
   ⟨613, 1, 1, 42280⟩, ⟨614, 1, 1, 42308⟩, ⟨616, 1, 1, -209⟩, ⟨617, 1, 1, -211⟩,
   ⟨618, 1, 1, 42308⟩, ⟨619, 1, 1, 10743⟩, ⟨620, 1, 1, 42305⟩, ⟨623, 1, 1, -211⟩,
   ⟨625, 1, 1, 10749⟩, ⟨626, 1, 1, -213⟩, ⟨629, 1, 1, -214⟩, ⟨637, 1, 1, 10727⟩,
   ⟨640, 1, 1, -218⟩, ⟨642, 1, 1, 42307⟩, ⟨643, 1, 1, -218⟩, ⟨647, 1, 1, 42282⟩,
   ⟨648, 1, 1, -218⟩, ⟨649, 1, 1, -69⟩, ⟨650, 1, 2, -217⟩, ⟨652, 1, 1, -71⟩, ⟨658, 1, 1, -219⟩,
   ⟨669, 1, 1, 42261⟩, ⟨670, 1, 1, 42258⟩, ⟨837, 1, 1, 84⟩, ⟨881, 2, 2, -1⟩, ⟨887, 1, 1, -1⟩,
   ⟨891, 1, 3, 130⟩, ⟨940, 1, 1, -38⟩, ⟨941, 1, 3, -37⟩, ⟨945, 1, 17, -32⟩, ⟨962, 1, 1, -31⟩,
   ⟨963, 1, 9, -32⟩, ⟨972, 1, 1, -64⟩, ⟨973, 1, 2, -63⟩, ⟨976, 1, 1, -62⟩, ⟨977, 1, 1, -57⟩,
   ⟨981, 1, 1, -47⟩, ⟨982, 1, 1, -54⟩, ⟨983, 1, 1, -8⟩, ⟨985, 2, 12, -1⟩, ⟨1008, 1, 1, -86⟩,
   ⟨1009, 1, 1, -80⟩, ⟨1010, 1, 1, 7⟩, ⟨1011, 1, 1, -116⟩, ⟨1013, 1, 1, -96⟩, ⟨1016, 1, 1, -1⟩,
   ⟨1019, 1, 1, -1⟩, ⟨1072, 1, 32, -32⟩, ⟨1104, 1, 16, -80⟩, ⟨1121, 2, 17, -1⟩, ⟨1163, 2, 27, -1⟩,
   ⟨1218, 2, 7, -1⟩, ⟨1231, 1, 1, -15⟩, ⟨1233, 2, 48, -1⟩, ⟨1377, 1, 38, -48⟩,
   ⟨4304, 1, 43, 3008⟩, ⟨4349, 1, 3, 3008⟩, ⟨5112, 1, 6, -8⟩, ⟨7296, 1, 1, -6254⟩,
   ⟨7297, 1, 1, -6253⟩, ⟨7298, 1, 1, -6244⟩, ⟨7299, 1, 2, -6242⟩, ⟨7301, 1, 1, -6243⟩,
   ⟨7302, 1, 1, -6236⟩, ⟨7303, 1, 1, -6181⟩, ⟨7304, 1, 1, 35266⟩, ⟨7545, 1, 1, 35332⟩,
   ⟨7549, 1, 1, 3814⟩, ⟨7566, 1, 1, 35384⟩, ⟨7681, 2, 75, -1⟩, ⟨7835, 1, 1, -59⟩,
   ⟨7841, 2, 48, -1⟩, ⟨7936, 1, 8, 8⟩, ⟨7952, 1, 6, 8⟩, ⟨7968, 1, 8, 8⟩, ⟨7984, 1, 8, 8⟩,
   ⟨8000, 1, 6, 8⟩, ⟨8017, 2, 4, 8⟩, ⟨8032, 1, 8, 8⟩, ⟨8048, 1, 2, 74⟩, ⟨8050, 1, 4, 86⟩,
   ⟨8054, 1, 2, 100⟩, ⟨8056, 1, 2, 128⟩, ⟨8058, 1, 2, 112⟩, ⟨8060, 1, 2, 126⟩, ⟨8112, 1, 2, 8⟩,
   ⟨8126, 1, 1, -7205⟩, ⟨8144, 1, 2, 8⟩, ⟨8160, 1, 2, 8⟩, ⟨8165, 1, 1, 7⟩, ⟨8526, 1, 1, -28⟩,
   ⟨8560, 1, 16, -16⟩, ⟨8580, 1, 1, -1⟩, ⟨9424, 1, 26, -26⟩, ⟨11312, 1, 48, -48⟩,
   ⟨11361, 1, 1, -1⟩, ⟨11365, 1, 1, -10795⟩, ⟨11366, 1, 1, -10792⟩, ⟨11368, 2, 3, -1⟩,
   ⟨11379, 1, 1, -1⟩, ⟨11382, 1, 1, -1⟩, ⟨11393, 2, 50, -1⟩, ⟨11500, 2, 2, -1⟩, ⟨11507, 1, 1, -1⟩,
   ⟨11520, 1, 38, -7264⟩, ⟨11559, 1, 1, -7264⟩, ⟨11565, 1, 1, -7264⟩, ⟨42561, 2, 23, -1⟩,
   ⟨42625, 2, 14, -1⟩, ⟨42787, 2, 7, -1⟩, ⟨42803, 2, 31, -1⟩, ⟨42874, 2, 2, -1⟩,
   ⟨42879, 2, 5, -1⟩, ⟨42892, 1, 1, -1⟩, ⟨42897, 2, 2, -1⟩, ⟨42900, 1, 1, 48⟩, ⟨42903, 2, 10, -1⟩,
   ⟨42933, 2, 8, -1⟩, ⟨42952, 2, 2, -1⟩, ⟨42961, 1, 1, -1⟩, ⟨42967, 2, 2, -1⟩, ⟨42998, 1, 1, -1⟩,
   ⟨43859, 1, 1, -928⟩, ⟨43888, 1, 80, -38864⟩, ⟨65345, 1, 26, -32⟩, ⟨66600, 1, 40, -40⟩,
   ⟨66776, 1, 36, -40⟩, ⟨66967, 1, 11, -39⟩, ⟨66979, 1, 15, -39⟩, ⟨66995, 1, 7, -39⟩,
   ⟨67003, 1, 2, -39⟩, ⟨68800, 1, 51, -64⟩, ⟨71872, 1, 32, -32⟩, ⟨93792, 1, 32, -32⟩,
   ⟨125218, 1, 34, -34⟩]

/-- Where the upper-case form is several code points. -/
def upperExpansions : List (Nat × List Nat) :=
  [(223, [83, 83]), (329, [700, 78]), (496, [74, 780]), (912, [921, 776, 769]),
   (944, [933, 776, 769]), (1415, [1333, 1362]), (7830, [72, 817]), (7831, [84, 776]),
   (7832, [87, 778]), (7833, [89, 778]), (7834, [65, 702]), (8016, [933, 787]),
   (8018, [933, 787, 768]), (8020, [933, 787, 769]), (8022, [933, 787, 834]), (8064, [7944, 921]),
   (8065, [7945, 921]), (8066, [7946, 921]), (8067, [7947, 921]), (8068, [7948, 921]),
   (8069, [7949, 921]), (8070, [7950, 921]), (8071, [7951, 921]), (8072, [7944, 921]),
   (8073, [7945, 921]), (8074, [7946, 921]), (8075, [7947, 921]), (8076, [7948, 921]),
   (8077, [7949, 921]), (8078, [7950, 921]), (8079, [7951, 921]), (8080, [7976, 921]),
   (8081, [7977, 921]), (8082, [7978, 921]), (8083, [7979, 921]), (8084, [7980, 921]),
   (8085, [7981, 921]), (8086, [7982, 921]), (8087, [7983, 921]), (8088, [7976, 921]),
   (8089, [7977, 921]), (8090, [7978, 921]), (8091, [7979, 921]), (8092, [7980, 921]),
   (8093, [7981, 921]), (8094, [7982, 921]), (8095, [7983, 921]), (8096, [8040, 921]),
   (8097, [8041, 921]), (8098, [8042, 921]), (8099, [8043, 921]), (8100, [8044, 921]),
   (8101, [8045, 921]), (8102, [8046, 921]), (8103, [8047, 921]), (8104, [8040, 921]),
   (8105, [8041, 921]), (8106, [8042, 921]), (8107, [8043, 921]), (8108, [8044, 921]),
   (8109, [8045, 921]), (8110, [8046, 921]), (8111, [8047, 921]), (8114, [8122, 921]),
   (8115, [913, 921]), (8116, [902, 921]), (8118, [913, 834]), (8119, [913, 834, 921]),
   (8124, [913, 921]), (8130, [8138, 921]), (8131, [919, 921]), (8132, [905, 921]),
   (8134, [919, 834]), (8135, [919, 834, 921]), (8140, [919, 921]), (8146, [921, 776, 768]),
   (8147, [921, 776, 769]), (8150, [921, 834]), (8151, [921, 776, 834]), (8162, [933, 776, 768]),
   (8163, [933, 776, 769]), (8164, [929, 787]), (8166, [933, 834]), (8167, [933, 776, 834]),
   (8178, [8186, 921]), (8179, [937, 921]), (8180, [911, 921]), (8182, [937, 834]),
   (8183, [937, 834, 921]), (8188, [937, 921]), (64256, [70, 70]), (64257, [70, 73]),
   (64258, [70, 76]), (64259, [70, 70, 73]), (64260, [70, 70, 76]), (64261, [83, 84]),
   (64262, [83, 84]), (64275, [1348, 1350]), (64276, [1348, 1333]), (64277, [1348, 1339]),
   (64278, [1358, 1350]), (64279, [1348, 1341])]

/-- What case mapping passes over when it looks for the neighbours of a letter. -/
def caseIgnorableEdges : Edges :=
  [39, 40, 46, 47, 58, 59, 94, 95, 96, 97, 168, 169, 173, 174, 175, 176, 180, 181, 183, 185, 688,
   880, 884, 886, 890, 891, 900, 902, 903, 904, 1155, 1162, 1369, 1370, 1375, 1376, 1425, 1470,
   1471, 1472, 1473, 1475, 1476, 1478, 1479, 1480, 1524, 1525, 1536, 1542, 1552, 1563, 1564, 1565,
   1600, 1601, 1611, 1632, 1648, 1649, 1750, 1758, 1759, 1769, 1770, 1774, 1807, 1808, 1809, 1810,
   1840, 1867, 1958, 1969, 2027, 2038, 2042, 2043, 2045, 2046, 2070, 2094, 2137, 2140, 2184, 2185,
   2192, 2194, 2200, 2208, 2249, 2307, 2362, 2363, 2364, 2365, 2369, 2377, 2381, 2382, 2385, 2392,
   2402, 2404, 2417, 2418, 2433, 2434, 2492, 2493, 2497, 2501, 2509, 2510, 2530, 2532, 2558, 2559,
   2561, 2563, 2620, 2621, 2625, 2627, 2631, 2633, 2635, 2638, 2641, 2642, 2672, 2674, 2677, 2678,
   2689, 2691, 2748, 2749, 2753, 2758, 2759, 2761, 2765, 2766, 2786, 2788, 2810, 2816, 2817, 2818,
   2876, 2877, 2879, 2880, 2881, 2885, 2893, 2894, 2901, 2903, 2914, 2916, 2946, 2947, 3008, 3009,
   3021, 3022, 3072, 3073, 3076, 3077, 3132, 3133, 3134, 3137, 3142, 3145, 3146, 3150, 3157, 3159,
   3170, 3172, 3201, 3202, 3260, 3261, 3263, 3264, 3270, 3271, 3276, 3278, 3298, 3300, 3328, 3330,
   3387, 3389, 3393, 3397, 3405, 3406, 3426, 3428, 3457, 3458, 3530, 3531, 3538, 3541, 3542, 3543,
   3633, 3634, 3636, 3643, 3654, 3663, 3761, 3762, 3764, 3773, 3782, 3783, 3784, 3790, 3864, 3866,
   3893, 3894, 3895, 3896, 3897, 3898, 3953, 3967, 3968, 3973, 3974, 3976, 3981, 3992, 3993, 4029,
   4038, 4039, 4141, 4145, 4146, 4152, 4153, 4155, 4157, 4159, 4184, 4186, 4190, 4193, 4209, 4213,
   4226, 4227, 4229, 4231, 4237, 4238, 4253, 4254, 4348, 4349, 4957, 4960, 5906, 5909, 5938, 5940,
   5970, 5972, 6002, 6004, 6068, 6070, 6071, 6078, 6086, 6087, 6089, 6100, 6103, 6104, 6109, 6110,
   6155, 6160, 6211, 6212, 6277, 6279, 6313, 6314, 6432, 6435, 6439, 6441, 6450, 6451, 6457, 6460,
   6679, 6681, 6683, 6684, 6742, 6743, 6744, 6751, 6752, 6753, 6754, 6755, 6757, 6765, 6771, 6781,
   6783, 6784, 6823, 6824, 6832, 6863, 6912, 6916, 6964, 6965, 6966, 6971, 6972, 6973, 6978, 6979,
   7019, 7028, 7040, 7042, 7074, 7078, 7080, 7082, 7083, 7086, 7142, 7143, 7144, 7146, 7149, 7150,
   7151, 7154, 7212, 7220, 7222, 7224, 7288, 7294, 7376, 7379, 7380, 7393, 7394, 7401, 7405, 7406,
   7412, 7413, 7416, 7418, 7468, 7531, 7544, 7545, 7579, 7680, 8125, 8126, 8127, 8130, 8141, 8144,
   8157, 8160, 8173, 8176, 8189, 8191, 8203, 8208, 8216, 8218, 8228, 8229, 8231, 8232, 8234, 8239,
   8288, 8293, 8294, 8304, 8305, 8306, 8319, 8320, 8336, 8349, 8400, 8433, 11388, 11390, 11503,
   11506, 11631, 11632, 11647, 11648, 11744, 11776, 11823, 11824, 12293, 12294, 12330, 12334,
   12337, 12342, 12347, 12348, 12441, 12447, 12540, 12543, 40981, 40982, 42232, 42238, 42508,
   42509, 42607, 42611, 42612, 42622, 42623, 42624, 42652, 42656, 42736, 42738, 42752, 42786,
   42864, 42865, 42888, 42891, 42994, 42997, 43000, 43002, 43010, 43011, 43014, 43015, 43019,
   43020, 43045, 43047, 43052, 43053, 43204, 43206, 43232, 43250, 43263, 43264, 43302, 43310,
   43335, 43346, 43392, 43395, 43443, 43444, 43446, 43450, 43452, 43454, 43471, 43472, 43493,
   43495, 43561, 43567, 43569, 43571, 43573, 43575, 43587, 43588, 43596, 43597, 43632, 43633,
   43644, 43645, 43696, 43697, 43698, 43701, 43703, 43705, 43710, 43712, 43713, 43714, 43741,
   43742, 43756, 43758, 43763, 43765, 43766, 43767, 43867, 43872, 43881, 43884, 44005, 44006,
   44008, 44009, 44013, 44014, 64286, 64287, 64434, 64451, 65024, 65040, 65043, 65044, 65056,
   65072, 65106, 65107, 65109, 65110, 65279, 65280, 65287, 65288, 65294, 65295, 65306, 65307,
   65342, 65343, 65344, 65345, 65392, 65393, 65438, 65440, 65507, 65508, 65529, 65532, 66045,
   66046, 66272, 66273, 66422, 66427, 67456, 67462, 67463, 67505, 67506, 67515, 68097, 68100,
   68101, 68103, 68108, 68112, 68152, 68155, 68159, 68160, 68325, 68327, 68900, 68904, 69291,
   69293, 69446, 69457, 69506, 69510, 69633, 69634, 69688, 69703, 69744, 69745, 69747, 69749,
   69759, 69762, 69811, 69815, 69817, 69819, 69821, 69822, 69826, 69827, 69837, 69838, 69888,
   69891, 69927, 69932, 69933, 69941, 70003, 70004, 70016, 70018, 70070, 70079, 70089, 70093,
   70095, 70096, 70191, 70194, 70196, 70197, 70198, 70200, 70206, 70207, 70367, 70368, 70371,
   70379, 70400, 70402, 70459, 70461, 70464, 70465, 70502, 70509, 70512, 70517, 70712, 70720,
   70722, 70725, 70726, 70727, 70750, 70751, 70835, 70841, 70842, 70843, 70847, 70849, 70850,
   70852, 71090, 71094, 71100, 71102, 71103, 71105, 71132, 71134, 71219, 71227, 71229, 71230,
   71231, 71233, 71339, 71340, 71341, 71342, 71344, 71350, 71351, 71352, 71453, 71456, 71458,
   71462, 71463, 71468, 71727, 71736, 71737, 71739, 71995, 71997, 71998, 71999, 72003, 72004,
   72148, 72152, 72154, 72156, 72160, 72161, 72193, 72203, 72243, 72249, 72251, 72255, 72263,
   72264, 72273, 72279, 72281, 72284, 72330, 72343, 72344, 72346, 72752, 72759, 72760, 72766,
   72767, 72768, 72850, 72872, 72874, 72881, 72882, 72884, 72885, 72887, 73009, 73015, 73018,
   73019, 73020, 73022, 73023, 73030, 73031, 73032, 73104, 73106, 73109, 73110, 73111, 73112,
   73459, 73461, 78896, 78905, 92912, 92917, 92976, 92983, 92992, 92996, 94031, 94032, 94095,
   94112, 94176, 94178, 94179, 94181, 110576, 110580, 110581, 110588, 110589, 110591, 113821,
   113823, 113824, 113828, 118528, 118574, 118576, 118599, 119143, 119146, 119155, 119171, 119173,
   119180, 119210, 119214, 119362, 119365, 121344, 121399, 121403, 121453, 121461, 121462, 121476,
   121477, 121499, 121504, 121505, 121520, 122880, 122887, 122888, 122905, 122907, 122914, 122915,
   122917, 122918, 122923, 123184, 123198, 123566, 123567, 123628, 123632, 125136, 125143, 125252,
   125260, 127995, 128000, 917505, 917506, 917536, 917632, 917760, 918000]

/-- The cased code points that are not passed over. -/
def casedEdges : Edges :=
  [65, 91, 97, 123, 170, 171, 181, 182, 186, 187, 192, 215, 216, 247, 248, 443, 444, 448, 452,
   660, 661, 688, 880, 884, 886, 888, 891, 894, 895, 896, 902, 903, 904, 907, 908, 909, 910, 930,
   931, 1014, 1015, 1154, 1162, 1328, 1329, 1367, 1376, 1417, 4256, 4294, 4295, 4296, 4301, 4302,
   4304, 4347, 4349, 4352, 5024, 5110, 5112, 5118, 7296, 7305, 7312, 7355, 7357, 7360, 7424, 7468,
   7531, 7544, 7545, 7579, 7680, 7958, 7960, 7966, 7968, 8006, 8008, 8014, 8016, 8024, 8025, 8026,
   8027, 8028, 8029, 8030, 8031, 8062, 8064, 8117, 8118, 8125, 8126, 8127, 8130, 8133, 8134, 8141,
   8144, 8148, 8150, 8156, 8160, 8173, 8178, 8181, 8182, 8189, 8450, 8451, 8455, 8456, 8458, 8468,
   8469, 8470, 8473, 8478, 8484, 8485, 8486, 8487, 8488, 8489, 8490, 8494, 8495, 8501, 8505, 8506,
   8508, 8512, 8517, 8522, 8526, 8527, 8544, 8576, 8579, 8581, 9398, 9450, 11264, 11388, 11390,
   11493, 11499, 11503, 11506, 11508, 11520, 11558, 11559, 11560, 11565, 11566, 42560, 42606,
   42624, 42652, 42786, 42864, 42865, 42888, 42891, 42895, 42896, 42955, 42960, 42962, 42963,
   42964, 42965, 42970, 42997, 42999, 43002, 43003, 43824, 43867, 43872, 43881, 43888, 43968,
   64256, 64263, 64275, 64280, 65313, 65339, 65345, 65371, 66560, 66640, 66736, 66772, 66776,
   66812, 66928, 66939, 66940, 66955, 66956, 66963, 66964, 66966, 66967, 66978, 66979, 66994,
   66995, 67002, 67003, 67005, 68736, 68787, 68800, 68851, 71840, 71904, 93760, 93824, 119808,
   119893, 119894, 119965, 119966, 119968, 119970, 119971, 119973, 119975, 119977, 119981, 119982,
   119994, 119995, 119996, 119997, 120004, 120005, 120070, 120071, 120075, 120077, 120085, 120086,
   120093, 120094, 120122, 120123, 120127, 120128, 120133, 120134, 120135, 120138, 120145, 120146,
   120486, 120488, 120513, 120514, 120539, 120540, 120571, 120572, 120597, 120598, 120629, 120630,
   120655, 120656, 120687, 120688, 120713, 120714, 120745, 120746, 120771, 120772, 120780, 122624,
   122634, 122635, 122655, 125184, 125252, 127280, 127306, 127312, 127338, 127344, 127370]

namespace CodePoint

def isCaseIgnorable (c : CodePoint) : Bool := caseIgnorableEdges.contains c.val

def isCased (c : CodePoint) : Bool := casedEdges.contains c.val

/-- The lower-case form of `c` on its own. -/
def lower (c : CodePoint) : Text :=
  if c.val = 0x130 then [0x69, 0x307].filterMap (fun x : Nat => ofNat? x)
  else
    match lowerRuns.findSome? fun run => run.map? c.val with
    | some n => (ofNat? n).toList
    | none => [c]

/-- The upper-case form of `c`. -/
def upper (c : CodePoint) : Text :=
  match upperExpansions.find? fun entry => entry.1 = c.val with
  | some entry => entry.2.filterMap ofNat?
  | none =>
    match upperRuns.findSome? fun run => run.map? c.val with
    | some n => (ofNat? n).toList
    | none => [c]

end CodePoint

namespace Text

/-- Whether the nearest letter of `s`, past what is ignorable, is cased. -/
def cased? (s : Text) : Bool :=
  match s.dropWhile CodePoint.isCaseIgnorable with
  | [] => false
  | c :: _ => c.isCased

/-- Lower case after the code points `before`, nearest first: a capital sigma that ends a word has a
form of its own. -/
def lowerAfter (before : Text) : Text → Text
  | [] => []
  | c :: rest =>
    let form :=
      if c.val = 0x3A3 then
        (CodePoint.ofNat? (if cased? before && !(cased? rest) then 0x3C2 else 0x3C3)).toList
      else c.lower
    form ++ lowerAfter (c :: before) rest

/-- `s` in lower case. -/
def lower (s : Text) : Text := lowerAfter [] s

/-- `s` in upper case. -/
def upper (s : Text) : Text := s.flatMap CodePoint.upper

end Text

end SchemaTypings
