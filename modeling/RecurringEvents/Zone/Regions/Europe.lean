import RecurringEvents.Zone.Region

/-!
# Regions of Europe

The clocks of the regions since local mean time, as the tz database tells them (release 2025b). The
latest change stands first.
-/

namespace RecurringEvents.Region

/-- `Europe/Amsterdam`. -/
def amsterdam : Region where
  name := "Europe/Amsterdam"
  first := ⟨1050, "LMT"⟩
  changes :=
    [⟨828234000, 7200, "CEST"⟩, ⟨811904400, 3600, "CET"⟩, ⟨796179600, 7200, "CEST"⟩,
     ⟨780454800, 3600, "CET"⟩, ⟨764730000, 7200, "CEST"⟩, ⟨749005200, 3600, "CET"⟩,
     ⟨733280400, 7200, "CEST"⟩, ⟨717555600, 3600, "CET"⟩, ⟨701830800, 7200, "CEST"⟩,
     ⟨686106000, 3600, "CET"⟩, ⟨670381200, 7200, "CEST"⟩, ⟨654656400, 3600, "CET"⟩,
     ⟨638326800, 7200, "CEST"⟩, ⟨622602000, 3600, "CET"⟩, ⟨606877200, 7200, "CEST"⟩,
     ⟨591152400, 3600, "CET"⟩, ⟨575427600, 7200, "CEST"⟩, ⟨559702800, 3600, "CET"⟩,
     ⟨543978000, 7200, "CEST"⟩, ⟨528253200, 3600, "CET"⟩, ⟨512528400, 7200, "CEST"⟩,
     ⟨496803600, 3600, "CET"⟩, ⟨481078800, 7200, "CEST"⟩, ⟨465354000, 3600, "CET"⟩,
     ⟨449024400, 7200, "CEST"⟩, ⟨433299600, 3600, "CET"⟩, ⟨417574800, 7200, "CEST"⟩,
     ⟨401850000, 3600, "CET"⟩, ⟨386125200, 7200, "CEST"⟩, ⟨370400400, 3600, "CET"⟩,
     ⟨354675600, 7200, "CEST"⟩, ⟨338950800, 3600, "CET"⟩, ⟨323830800, 7200, "CEST"⟩,
     ⟨307501200, 3600, "CET"⟩, ⟨291776400, 7200, "CEST"⟩, ⟨276051600, 3600, "CET"⟩,
     ⟨260326800, 7200, "CEST"⟩, ⟨243997200, 3600, "CET"⟩, ⟨228877200, 7200, "CEST"⟩,
     ⟨-733273200, 3600, "CET"⟩, ⟨-745455600, 7200, "CEST"⟩, ⟨-766623600, 3600, "CET"⟩,
     ⟨-781052400, 7200, "CEST"⟩, ⟨-798073200, 3600, "CET"⟩, ⟨-812502000, 7200, "CEST"⟩,
     ⟨-828226800, 3600, "CET"⟩, ⟨-844556400, 7200, "CEST"⟩, ⟨-857257200, 3600, "CET"⟩,
     ⟨-934668000, 7200, "CEST"⟩, ⟨-942012000, 3600, "WEST"⟩, ⟨-950479200, 0, "WET"⟩,
     ⟨-969228000, 3600, "WEST"⟩, ⟨-986162400, 0, "WET"⟩, ⟨-1002492000, 3600, "WEST"⟩,
     ⟨-1017612000, 0, "WET"⟩, ⟨-1033336800, 3600, "WEST"⟩, ⟨-1049061600, 0, "WET"⟩,
     ⟨-1063576800, 3600, "WEST"⟩, ⟨-1080511200, 0, "WET"⟩, ⟨-1096840800, 3600, "WEST"⟩,
     ⟨-1111960800, 0, "WET"⟩, ⟨-1127685600, 3600, "WEST"⟩, ⟨-1143410400, 0, "WET"⟩,
     ⟨-1160344800, 3600, "WEST"⟩, ⟨-1175464800, 0, "WET"⟩, ⟨-1191189600, 3600, "WEST"⟩,
     ⟨-1206914400, 0, "WET"⟩, ⟨-1221429600, 3600, "WEST"⟩, ⟨-1238364000, 0, "WET"⟩,
     ⟨-1253484000, 3600, "WEST"⟩, ⟨-1269813600, 0, "WET"⟩, ⟨-1284328800, 3600, "WEST"⟩,
     ⟨-1301263200, 0, "WET"⟩, ⟨-1316394000, 3600, "WEST"⟩, ⟨-1333328400, 0, "WET"⟩,
     ⟨-1348448400, 3600, "WEST"⟩, ⟨-1364778000, 0, "WET"⟩, ⟨-1379293200, 3600, "WEST"⟩,
     ⟨-1396227600, 0, "WET"⟩, ⟨-1411952400, 3600, "WEST"⟩, ⟨-1427677200, 0, "WET"⟩,
     ⟨-1444006800, 3600, "WEST"⟩, ⟨-1459126800, 0, "WET"⟩, ⟨-1473642000, 3600, "WEST"⟩,
     ⟨-1490576400, 0, "WET"⟩, ⟨-1507510800, 3600, "WEST"⟩, ⟨-1520557200, 0, "WET"⟩,
     ⟨-1539997200, 3600, "WEST"⟩, ⟨-1552266000, 0, "WET"⟩, ⟨-1574038800, 3600, "WEST"⟩,
     ⟨-1585530000, 0, "WET"⟩, ⟨-1604278800, 3600, "WEST"⟩, ⟨-1613826000, 0, "WET"⟩,
     ⟨-1618700400, 3600, "CET"⟩, ⟨-1632006000, 7200, "CEST"⟩, ⟨-1650150000, 3600, "CET"⟩,
     ⟨-1663455600, 7200, "CEST"⟩, ⟨-1680483600, 3600, "CET"⟩, ⟨-1693702800, 7200, "CEST"⟩,
     ⟨-1740355200, 3600, "CET"⟩, ⟨-2450995200, 0, "WET"⟩, ⟨-2840141850, 1050, "BMT"⟩]
  later := .seasonal ⟨3600, "CET"⟩ ⟨7200, "CEST"⟩ ⟨3, 5, 0, 7200⟩ ⟨10, 5, 0, 10800⟩

/-- `Europe/Berlin`. -/
def berlin : Region where
  name := "Europe/Berlin"
  first := ⟨3208, "LMT"⟩
  changes :=
    [⟨828234000, 7200, "CEST"⟩, ⟨811904400, 3600, "CET"⟩, ⟨796179600, 7200, "CEST"⟩,
     ⟨780454800, 3600, "CET"⟩, ⟨764730000, 7200, "CEST"⟩, ⟨749005200, 3600, "CET"⟩,
     ⟨733280400, 7200, "CEST"⟩, ⟨717555600, 3600, "CET"⟩, ⟨701830800, 7200, "CEST"⟩,
     ⟨686106000, 3600, "CET"⟩, ⟨670381200, 7200, "CEST"⟩, ⟨654656400, 3600, "CET"⟩,
     ⟨638326800, 7200, "CEST"⟩, ⟨622602000, 3600, "CET"⟩, ⟨606877200, 7200, "CEST"⟩,
     ⟨591152400, 3600, "CET"⟩, ⟨575427600, 7200, "CEST"⟩, ⟨559702800, 3600, "CET"⟩,
     ⟨543978000, 7200, "CEST"⟩, ⟨528253200, 3600, "CET"⟩, ⟨512528400, 7200, "CEST"⟩,
     ⟨496803600, 3600, "CET"⟩, ⟨481078800, 7200, "CEST"⟩, ⟨465354000, 3600, "CET"⟩,
     ⟨449024400, 7200, "CEST"⟩, ⟨433299600, 3600, "CET"⟩, ⟨417574800, 7200, "CEST"⟩,
     ⟨401850000, 3600, "CET"⟩, ⟨386125200, 7200, "CEST"⟩, ⟨370400400, 3600, "CET"⟩,
     ⟨354675600, 7200, "CEST"⟩, ⟨338950800, 3600, "CET"⟩, ⟨323830800, 7200, "CEST"⟩,
     ⟨-639010800, 3600, "CET"⟩, ⟨-654130800, 7200, "CEST"⟩, ⟨-670460400, 3600, "CET"⟩,
     ⟨-684975600, 7200, "CEST"⟩, ⟨-701910000, 3600, "CET"⟩, ⟨-710380800, 7200, "CEST"⟩,
     ⟨-714610800, 10800, "CEMT"⟩, ⟨-717631200, 7200, "CEST"⟩, ⟨-733273200, 3600, "CET"⟩,
     ⟨-748479600, 7200, "CEST"⟩, ⟨-761180400, 3600, "CET"⟩, ⟨-765936000, 7200, "CEST"⟩,
     ⟨-776563200, 10800, "CEMT"⟩, ⟨-781052400, 7200, "CEST"⟩, ⟨-796777200, 3600, "CET"⟩,
     ⟨-812502000, 7200, "CEST"⟩, ⟨-828226800, 3600, "CET"⟩, ⟨-844556400, 7200, "CEST"⟩,
     ⟨-857257200, 3600, "CET"⟩, ⟨-938905200, 7200, "CEST"⟩, ⟨-1618700400, 3600, "CET"⟩,
     ⟨-1632006000, 7200, "CEST"⟩, ⟨-1650150000, 3600, "CET"⟩, ⟨-1663455600, 7200, "CEST"⟩,
     ⟨-1680483600, 3600, "CET"⟩, ⟨-1693706400, 7200, "CEST"⟩, ⟨-2422054408, 3600, "CET"⟩]
  later := .seasonal ⟨3600, "CET"⟩ ⟨7200, "CEST"⟩ ⟨3, 5, 0, 7200⟩ ⟨10, 5, 0, 10800⟩

/-- `Europe/Dublin`. -/
def dublin : Region where
  name := "Europe/Dublin"
  first := ⟨-1521, "LMT"⟩
  changes :=
    [⟨828234000, 3600, "IST"⟩, ⟨814323600, 0, "GMT"⟩, ⟨796179600, 3600, "IST"⟩,
     ⟨782874000, 0, "GMT"⟩, ⟨764730000, 3600, "IST"⟩, ⟨751424400, 0, "GMT"⟩,
     ⟨733280400, 3600, "IST"⟩, ⟨719974800, 0, "GMT"⟩, ⟨701830800, 3600, "IST"⟩,
     ⟨688525200, 0, "GMT"⟩, ⟨670381200, 3600, "IST"⟩, ⟨657075600, 0, "GMT"⟩,
     ⟨638326800, 3600, "IST"⟩, ⟨625626000, 0, "GMT"⟩, ⟨606877200, 3600, "IST"⟩,
     ⟨593571600, 0, "GMT"⟩, ⟨575427600, 3600, "IST"⟩, ⟨562122000, 0, "GMT"⟩,
     ⟨543978000, 3600, "IST"⟩, ⟨530672400, 0, "GMT"⟩, ⟨512528400, 3600, "IST"⟩,
     ⟨499222800, 0, "GMT"⟩, ⟨481078800, 3600, "IST"⟩, ⟨467773200, 0, "GMT"⟩,
     ⟨449024400, 3600, "IST"⟩, ⟨435718800, 0, "GMT"⟩, ⟨417574800, 3600, "IST"⟩,
     ⟨404269200, 0, "GMT"⟩, ⟨386125200, 3600, "IST"⟩, ⟨372819600, 0, "GMT"⟩,
     ⟨354675600, 3600, "IST"⟩, ⟨341373600, 0, "GMT"⟩, ⟨322020000, 3600, "IST"⟩,
     ⟨309924000, 0, "GMT"⟩, ⟨290570400, 3600, "IST"⟩, ⟨278474400, 0, "GMT"⟩,
     ⟨259120800, 3600, "IST"⟩, ⟨246420000, 0, "GMT"⟩, ⟨227671200, 3600, "IST"⟩,
     ⟨214970400, 0, "GMT"⟩, ⟨196221600, 3600, "IST"⟩, ⟨183520800, 0, "GMT"⟩,
     ⟨164167200, 3600, "IST"⟩, ⟨152071200, 0, "GMT"⟩, ⟨132717600, 3600, "IST"⟩,
     ⟨120621600, 0, "GMT"⟩, ⟨101268000, 3600, "IST"⟩, ⟨89172000, 0, "GMT"⟩, ⟨69818400, 3600, "IST"⟩,
     ⟨57722400, 0, "GMT"⟩, ⟨-59004000, 3600, "IST"⟩, ⟨-68680800, 0, "GMT"⟩,
     ⟨-88034400, 3600, "IST"⟩, ⟨-100735200, 0, "GMT"⟩, ⟨-119484000, 3600, "IST"⟩,
     ⟨-132184800, 0, "GMT"⟩, ⟨-150933600, 3600, "IST"⟩, ⟨-163634400, 0, "GMT"⟩,
     ⟨-182383200, 3600, "IST"⟩, ⟨-195084000, 0, "GMT"⟩, ⟨-213228000, 3600, "IST"⟩,
     ⟨-226533600, 0, "GMT"⟩, ⟨-245282400, 3600, "IST"⟩, ⟨-257983200, 0, "GMT"⟩,
     ⟨-276732000, 3600, "IST"⟩, ⟨-291852000, 0, "GMT"⟩, ⟨-306972000, 3600, "IST"⟩,
     ⟨-323301600, 0, "GMT"⟩, ⟨-337816800, 3600, "IST"⟩, ⟨-354751200, 0, "GMT"⟩,
     ⟨-369266400, 3600, "IST"⟩, ⟨-386200800, 0, "GMT"⟩, ⟨-401320800, 3600, "IST"⟩,
     ⟨-417650400, 0, "GMT"⟩, ⟨-432165600, 3600, "IST"⟩, ⟨-449704800, 0, "GMT"⟩,
     ⟨-464220000, 3600, "IST"⟩, ⟨-481154400, 0, "GMT"⟩, ⟨-496274400, 3600, "IST"⟩,
     ⟨-512604000, 0, "GMT"⟩, ⟨-527119200, 3600, "IST"⟩, ⟨-542239200, 0, "GMT"⟩,
     ⟨-558568800, 3600, "IST"⟩, ⟨-574293600, 0, "GMT"⟩, ⟨-590623200, 3600, "IST"⟩,
     ⟨-605743200, 0, "GMT"⟩, ⟨-622072800, 3600, "IST"⟩, ⟨-636588000, 0, "GMT"⟩,
     ⟨-654732000, 3600, "IST"⟩, ⟨-668037600, 0, "GMT"⟩, ⟨-684972000, 3600, "IST"⟩,
     ⟨-699487200, 0, "GMT"⟩, ⟨-719445600, 3600, "IST"⟩, ⟨-733356000, 0, "GMT"⟩,
     ⟨-942012000, 3600, "IST"⟩, ⟨-950479200, 0, "GMT"⟩, ⟨-969228000, 3600, "IST"⟩,
     ⟨-986162400, 0, "GMT"⟩, ⟨-1001282400, 3600, "IST"⟩, ⟨-1017612000, 0, "GMT"⟩,
     ⟨-1032127200, 3600, "IST"⟩, ⟨-1049061600, 0, "GMT"⟩, ⟨-1063576800, 3600, "IST"⟩,
     ⟨-1080511200, 0, "GMT"⟩, ⟨-1095631200, 3600, "IST"⟩, ⟨-1111960800, 0, "GMT"⟩,
     ⟨-1126476000, 3600, "IST"⟩, ⟨-1143410400, 0, "GMT"⟩, ⟨-1159135200, 3600, "IST"⟩,
     ⟨-1175464800, 0, "GMT"⟩, ⟨-1189980000, 3600, "IST"⟩, ⟨-1206914400, 0, "GMT"⟩,
     ⟨-1221429600, 3600, "IST"⟩, ⟨-1238364000, 0, "GMT"⟩, ⟨-1253484000, 3600, "IST"⟩,
     ⟨-1269813600, 0, "GMT"⟩, ⟨-1284328800, 3600, "IST"⟩, ⟨-1301263200, 0, "GMT"⟩,
     ⟨-1315778400, 3600, "IST"⟩, ⟨-1333317600, 0, "GMT"⟩, ⟨-1348437600, 3600, "IST"⟩,
     ⟨-1364767200, 0, "GMT"⟩, ⟨-1379282400, 3600, "IST"⟩, ⟨-1396216800, 0, "GMT"⟩,
     ⟨-1410732000, 3600, "IST"⟩, ⟨-1428876000, 0, "GMT"⟩, ⟨-1442786400, 3600, "IST"⟩,
     ⟨-1460930400, 0, "GMT"⟩, ⟨-1473631200, 3600, "IST"⟩, ⟨-1490565600, 0, "GMT"⟩,
     ⟨-1507500000, 3600, "IST"⟩, ⟨-1522533600, 0, "GMT"⟩, ⟨-1538344800, 3600, "BST"⟩,
     ⟨-1552168800, 0, "GMT"⟩, ⟨-1570399200, 3600, "BST"⟩, ⟨-1586037600, 0, "GMT"⟩,
     ⟨-1601848800, 3600, "BST"⟩, ⟨-1617487200, 0, "GMT"⟩, ⟨-1633903200, 3600, "BST"⟩,
     ⟨-1650146400, 0, "GMT"⟩, ⟨-1664143200, 3600, "BST"⟩, ⟨-1680471279, 0, "GMT"⟩,
     ⟨-1691962479, 2079, "IST"⟩, ⟨-2821649679, -1521, "DMT"⟩]
  later := .seasonal ⟨3600, "IST"⟩ ⟨0, "GMT"⟩ ⟨10, 5, 0, 7200⟩ ⟨3, 5, 0, 3600⟩

/-- `Europe/London`. -/
def london : Region where
  name := "Europe/London"
  first := ⟨-75, "LMT"⟩
  changes :=
    [⟨846378000, 0, "GMT"⟩, ⟨828234000, 3600, "BST"⟩, ⟨814323600, 0, "GMT"⟩,
     ⟨796179600, 3600, "BST"⟩, ⟨782874000, 0, "GMT"⟩, ⟨764730000, 3600, "BST"⟩,
     ⟨751424400, 0, "GMT"⟩, ⟨733280400, 3600, "BST"⟩, ⟨719974800, 0, "GMT"⟩,
     ⟨701830800, 3600, "BST"⟩, ⟨688525200, 0, "GMT"⟩, ⟨670381200, 3600, "BST"⟩,
     ⟨657075600, 0, "GMT"⟩, ⟨638326800, 3600, "BST"⟩, ⟨625626000, 0, "GMT"⟩,
     ⟨606877200, 3600, "BST"⟩, ⟨593571600, 0, "GMT"⟩, ⟨575427600, 3600, "BST"⟩,
     ⟨562122000, 0, "GMT"⟩, ⟨543978000, 3600, "BST"⟩, ⟨530672400, 0, "GMT"⟩,
     ⟨512528400, 3600, "BST"⟩, ⟨499222800, 0, "GMT"⟩, ⟨481078800, 3600, "BST"⟩,
     ⟨467773200, 0, "GMT"⟩, ⟨449024400, 3600, "BST"⟩, ⟨435718800, 0, "GMT"⟩,
     ⟨417574800, 3600, "BST"⟩, ⟨404269200, 0, "GMT"⟩, ⟨386125200, 3600, "BST"⟩,
     ⟨372819600, 0, "GMT"⟩, ⟨354675600, 3600, "BST"⟩, ⟨341373600, 0, "GMT"⟩,
     ⟨322020000, 3600, "BST"⟩, ⟨309924000, 0, "GMT"⟩, ⟨290570400, 3600, "BST"⟩,
     ⟨278474400, 0, "GMT"⟩, ⟨259120800, 3600, "BST"⟩, ⟨246420000, 0, "GMT"⟩,
     ⟨227671200, 3600, "BST"⟩, ⟨214970400, 0, "GMT"⟩, ⟨196221600, 3600, "BST"⟩,
     ⟨183520800, 0, "GMT"⟩, ⟨164167200, 3600, "BST"⟩, ⟨152071200, 0, "GMT"⟩,
     ⟨132717600, 3600, "BST"⟩, ⟨120621600, 0, "GMT"⟩, ⟨101268000, 3600, "BST"⟩,
     ⟨89172000, 0, "GMT"⟩, ⟨69818400, 3600, "BST"⟩, ⟨57722400, 0, "GMT"⟩, ⟨-59004000, 3600, "BST"⟩,
     ⟨-68680800, 0, "GMT"⟩, ⟨-88034400, 3600, "BST"⟩, ⟨-100735200, 0, "GMT"⟩,
     ⟨-119484000, 3600, "BST"⟩, ⟨-132184800, 0, "GMT"⟩, ⟨-150933600, 3600, "BST"⟩,
     ⟨-163634400, 0, "GMT"⟩, ⟨-182383200, 3600, "BST"⟩, ⟨-195084000, 0, "GMT"⟩,
     ⟨-213228000, 3600, "BST"⟩, ⟨-226533600, 0, "GMT"⟩, ⟨-245282400, 3600, "BST"⟩,
     ⟨-257983200, 0, "GMT"⟩, ⟨-276732000, 3600, "BST"⟩, ⟨-291852000, 0, "GMT"⟩,
     ⟨-306972000, 3600, "BST"⟩, ⟨-323301600, 0, "GMT"⟩, ⟨-337816800, 3600, "BST"⟩,
     ⟨-354751200, 0, "GMT"⟩, ⟨-369266400, 3600, "BST"⟩, ⟨-386200800, 0, "GMT"⟩,
     ⟨-401320800, 3600, "BST"⟩, ⟨-417650400, 0, "GMT"⟩, ⟨-432165600, 3600, "BST"⟩,
     ⟨-449704800, 0, "GMT"⟩, ⟨-464220000, 3600, "BST"⟩, ⟨-481154400, 0, "GMT"⟩,
     ⟨-496274400, 3600, "BST"⟩, ⟨-512604000, 0, "GMT"⟩, ⟨-527119200, 3600, "BST"⟩,
     ⟨-542239200, 0, "GMT"⟩, ⟨-558568800, 3600, "BST"⟩, ⟨-574293600, 0, "GMT"⟩,
     ⟨-590623200, 3600, "BST"⟩, ⟨-605743200, 0, "GMT"⟩, ⟨-622072800, 3600, "BST"⟩,
     ⟨-636588000, 0, "GMT"⟩, ⟨-654732000, 3600, "BST"⟩, ⟨-668037600, 0, "GMT"⟩,
     ⟨-687996000, 3600, "BST"⟩, ⟨-699487200, 0, "GMT"⟩, ⟨-706748400, 3600, "BST"⟩,
     ⟨-717030000, 7200, "BDST"⟩, ⟨-719445600, 3600, "BST"⟩, ⟨-733356000, 0, "GMT"⟩,
     ⟨-748476000, 3600, "BST"⟩, ⟨-764805600, 0, "GMT"⟩, ⟨-772066800, 3600, "BST"⟩,
     ⟨-781052400, 7200, "BDST"⟩, ⟨-798073200, 3600, "BST"⟩, ⟨-812588400, 7200, "BDST"⟩,
     ⟨-832546800, 3600, "BST"⟩, ⟨-844038000, 7200, "BDST"⟩, ⟨-864601200, 3600, "BST"⟩,
     ⟨-875487600, 7200, "BDST"⟩, ⟨-896050800, 3600, "BST"⟩, ⟨-904518000, 7200, "BDST"⟩,
     ⟨-942012000, 3600, "BST"⟩, ⟨-950479200, 0, "GMT"⟩, ⟨-969228000, 3600, "BST"⟩,
     ⟨-986162400, 0, "GMT"⟩, ⟨-1001282400, 3600, "BST"⟩, ⟨-1017612000, 0, "GMT"⟩,
     ⟨-1032127200, 3600, "BST"⟩, ⟨-1049061600, 0, "GMT"⟩, ⟨-1063576800, 3600, "BST"⟩,
     ⟨-1080511200, 0, "GMT"⟩, ⟨-1095631200, 3600, "BST"⟩, ⟨-1111960800, 0, "GMT"⟩,
     ⟨-1126476000, 3600, "BST"⟩, ⟨-1143410400, 0, "GMT"⟩, ⟨-1159135200, 3600, "BST"⟩,
     ⟨-1175464800, 0, "GMT"⟩, ⟨-1189980000, 3600, "BST"⟩, ⟨-1206914400, 0, "GMT"⟩,
     ⟨-1221429600, 3600, "BST"⟩, ⟨-1238364000, 0, "GMT"⟩, ⟨-1253484000, 3600, "BST"⟩,
     ⟨-1269813600, 0, "GMT"⟩, ⟨-1284328800, 3600, "BST"⟩, ⟨-1301263200, 0, "GMT"⟩,
     ⟨-1315778400, 3600, "BST"⟩, ⟨-1333317600, 0, "GMT"⟩, ⟨-1348437600, 3600, "BST"⟩,
     ⟨-1364767200, 0, "GMT"⟩, ⟨-1379282400, 3600, "BST"⟩, ⟨-1396216800, 0, "GMT"⟩,
     ⟨-1410732000, 3600, "BST"⟩, ⟨-1428876000, 0, "GMT"⟩, ⟨-1442786400, 3600, "BST"⟩,
     ⟨-1460930400, 0, "GMT"⟩, ⟨-1473631200, 3600, "BST"⟩, ⟨-1490565600, 0, "GMT"⟩,
     ⟨-1507500000, 3600, "BST"⟩, ⟨-1522533600, 0, "GMT"⟩, ⟨-1538344800, 3600, "BST"⟩,
     ⟨-1552168800, 0, "GMT"⟩, ⟨-1570399200, 3600, "BST"⟩, ⟨-1586037600, 0, "GMT"⟩,
     ⟨-1601848800, 3600, "BST"⟩, ⟨-1617487200, 0, "GMT"⟩, ⟨-1633903200, 3600, "BST"⟩,
     ⟨-1650146400, 0, "GMT"⟩, ⟨-1664143200, 3600, "BST"⟩, ⟨-1680472800, 0, "GMT"⟩,
     ⟨-1691964000, 3600, "BST"⟩, ⟨-3852662325, 0, "GMT"⟩]
  later := .seasonal ⟨0, "GMT"⟩ ⟨3600, "BST"⟩ ⟨3, 5, 0, 3600⟩ ⟨10, 5, 0, 7200⟩

/-- `Europe/Madrid`. -/
def madrid : Region where
  name := "Europe/Madrid"
  first := ⟨-884, "LMT"⟩
  changes :=
    [⟨828234000, 7200, "CEST"⟩, ⟨811904400, 3600, "CET"⟩, ⟨796179600, 7200, "CEST"⟩,
     ⟨780454800, 3600, "CET"⟩, ⟨764730000, 7200, "CEST"⟩, ⟨749005200, 3600, "CET"⟩,
     ⟨733280400, 7200, "CEST"⟩, ⟨717555600, 3600, "CET"⟩, ⟨701830800, 7200, "CEST"⟩,
     ⟨686106000, 3600, "CET"⟩, ⟨670381200, 7200, "CEST"⟩, ⟨654656400, 3600, "CET"⟩,
     ⟨638326800, 7200, "CEST"⟩, ⟨622602000, 3600, "CET"⟩, ⟨606877200, 7200, "CEST"⟩,
     ⟨591152400, 3600, "CET"⟩, ⟨575427600, 7200, "CEST"⟩, ⟨559702800, 3600, "CET"⟩,
     ⟨543978000, 7200, "CEST"⟩, ⟨528253200, 3600, "CET"⟩, ⟨512528400, 7200, "CEST"⟩,
     ⟨496803600, 3600, "CET"⟩, ⟨481078800, 7200, "CEST"⟩, ⟨465354000, 3600, "CET"⟩,
     ⟨449024400, 7200, "CEST"⟩, ⟨433299600, 3600, "CET"⟩, ⟨417574800, 7200, "CEST"⟩,
     ⟨401850000, 3600, "CET"⟩, ⟨386125200, 7200, "CEST"⟩, ⟨370400400, 3600, "CET"⟩,
     ⟨354675600, 7200, "CEST"⟩, ⟨338950800, 3600, "CET"⟩, ⟨323830800, 7200, "CEST"⟩,
     ⟨307501200, 3600, "CET"⟩, ⟨291776400, 7200, "CEST"⟩, ⟨276051600, 3600, "CET"⟩,
     ⟨260326800, 7200, "CEST"⟩, ⟨243990000, 3600, "CET"⟩, ⟨228866400, 7200, "CEST"⟩,
     ⟨212540400, 3600, "CET"⟩, ⟨196812000, 7200, "CEST"⟩, ⟨181695600, 3600, "CET"⟩,
     ⟨166572000, 7200, "CEST"⟩, ⟨150246000, 3600, "CET"⟩, ⟨135122400, 7200, "CEST"⟩,
     ⟨-639018000, 3600, "CET"⟩, ⟨-652327200, 7200, "CEST"⟩, ⟨-733971600, 3600, "CET"⟩,
     ⟨-748490400, 7200, "CEST"⟩, ⟨-765421200, 3600, "CET"⟩, ⟨-779940000, 7200, "CEST"⟩,
     ⟨-796870800, 3600, "CET"⟩, ⟨-811389600, 7200, "CEST"⟩, ⟨-828320400, 3600, "CET"⟩,
     ⟨-842839200, 7200, "CEST"⟩, ⟨-862621200, 3600, "CET"⟩, ⟨-873079200, 7200, "CEST"⟩,
     ⟨-940208400, 3600, "CET"⟩, ⟨-954115200, 0, "WET"⟩, ⟨-986090400, 3600, "WEST"⟩,
     ⟨-999482400, 7200, "WEMT"⟩, ⟨-1001898000, 3600, "WEST"⟩, ⟨-1017619200, 0, "WET"⟩,
     ⟨-1026954000, 3600, "WEST"⟩, ⟨-1269820800, 0, "WET"⟩, ⟨-1284339600, 3600, "WEST"⟩,
     ⟨-1301270400, 0, "WET"⟩, ⟨-1316390400, 3600, "WEST"⟩, ⟨-1333324800, 0, "WET"⟩,
     ⟨-1348448400, 3600, "WEST"⟩, ⟨-1364774400, 0, "WET"⟩, ⟨-1379293200, 3600, "WEST"⟩,
     ⟨-1427673600, 0, "WET"⟩, ⟨-1442451600, 3600, "WEST"⟩, ⟨-1585353600, 0, "WET"⟩,
     ⟨-1601168400, 3600, "WEST"⟩, ⟨-1616889600, 0, "WET"⟩, ⟨-1631926800, 3600, "WEST"⟩,
     ⟨-2177452800, 0, "WET"⟩]
  later := .seasonal ⟨3600, "CET"⟩ ⟨7200, "CEST"⟩ ⟨3, 5, 0, 7200⟩ ⟨10, 5, 0, 10800⟩

/-- `Europe/Moscow`. -/
def moscow : Region where
  name := "Europe/Moscow"
  first := ⟨9017, "LMT"⟩
  changes :=
    [⟨1414274400, 10800, "MSK"⟩, ⟨1301180400, 14400, "MSK"⟩, ⟨1288479600, 10800, "MSK"⟩,
     ⟨1269730800, 14400, "MSD"⟩, ⟨1256425200, 10800, "MSK"⟩, ⟨1238281200, 14400, "MSD"⟩,
     ⟨1224975600, 10800, "MSK"⟩, ⟨1206831600, 14400, "MSD"⟩, ⟨1193526000, 10800, "MSK"⟩,
     ⟨1174777200, 14400, "MSD"⟩, ⟨1162076400, 10800, "MSK"⟩, ⟨1143327600, 14400, "MSD"⟩,
     ⟨1130626800, 10800, "MSK"⟩, ⟨1111878000, 14400, "MSD"⟩, ⟨1099177200, 10800, "MSK"⟩,
     ⟨1080428400, 14400, "MSD"⟩, ⟨1067122800, 10800, "MSK"⟩, ⟨1048978800, 14400, "MSD"⟩,
     ⟨1035673200, 10800, "MSK"⟩, ⟨1017529200, 14400, "MSD"⟩, ⟨1004223600, 10800, "MSK"⟩,
     ⟨985474800, 14400, "MSD"⟩, ⟨972774000, 10800, "MSK"⟩, ⟨954025200, 14400, "MSD"⟩,
     ⟨941324400, 10800, "MSK"⟩, ⟨922575600, 14400, "MSD"⟩, ⟨909270000, 10800, "MSK"⟩,
     ⟨891126000, 14400, "MSD"⟩, ⟨877820400, 10800, "MSK"⟩, ⟨859676400, 14400, "MSD"⟩,
     ⟨846370800, 10800, "MSK"⟩, ⟨828226800, 14400, "MSD"⟩, ⟨811897200, 10800, "MSK"⟩,
     ⟨796172400, 14400, "MSD"⟩, ⟨780447600, 10800, "MSK"⟩, ⟨764722800, 14400, "MSD"⟩,
     ⟨748998000, 10800, "MSK"⟩, ⟨733273200, 14400, "MSD"⟩, ⟨717548400, 10800, "MSK"⟩,
     ⟨701823600, 14400, "MSD"⟩, ⟨695779200, 10800, "MSK"⟩, ⟨686102400, 7200, "EET"⟩,
     ⟨670374000, 10800, "EEST"⟩, ⟨654649200, 10800, "MSK"⟩, ⟨638319600, 14400, "MSD"⟩,
     ⟨622594800, 10800, "MSK"⟩, ⟨606870000, 14400, "MSD"⟩, ⟨591145200, 10800, "MSK"⟩,
     ⟨575420400, 14400, "MSD"⟩, ⟨559695600, 10800, "MSK"⟩, ⟨543970800, 14400, "MSD"⟩,
     ⟨528246000, 10800, "MSK"⟩, ⟨512521200, 14400, "MSD"⟩, ⟨496796400, 10800, "MSK"⟩,
     ⟨481071600, 14400, "MSD"⟩, ⟨465346800, 10800, "MSK"⟩, ⟨449614800, 14400, "MSD"⟩,
     ⟨433800000, 10800, "MSK"⟩, ⟨417992400, 14400, "MSD"⟩, ⟨402264000, 10800, "MSK"⟩,
     ⟨386456400, 14400, "MSD"⟩, ⟨370728000, 10800, "MSK"⟩, ⟨354920400, 14400, "MSD"⟩,
     ⟨-1247536800, 10800, "MSK"⟩, ⟨-1491188400, 7200, "EET"⟩, ⟨-1522728000, 10800, "MSK"⟩,
     ⟨-1525323600, 14400, "MSD"⟩, ⟨-1539493200, 18000, "+05"⟩, ⟨-1542427200, 14400, "MSD"⟩,
     ⟨-1589860800, 10800, "MSK"⟩, ⟨-1593820800, 14400, "MSD"⟩, ⟨-1596429079, 16279, "MDST"⟩,
     ⟨-1618716679, 12679, "MST"⟩, ⟨-1627965079, 16279, "MDST"⟩, ⟨-1641353479, 9079, "MMT"⟩,
     ⟨-1656819079, 12679, "MST"⟩, ⟨-1688265017, 9079, "MMT"⟩, ⟨-2840149817, 9017, "MMT"⟩]
  later := .steady ⟨10800, "MSK"⟩

/-- `Europe/Paris`. -/
def paris : Region where
  name := "Europe/Paris"
  first := ⟨561, "LMT"⟩
  changes :=
    [⟨828234000, 7200, "CEST"⟩, ⟨811904400, 3600, "CET"⟩, ⟨796179600, 7200, "CEST"⟩,
     ⟨780454800, 3600, "CET"⟩, ⟨764730000, 7200, "CEST"⟩, ⟨749005200, 3600, "CET"⟩,
     ⟨733280400, 7200, "CEST"⟩, ⟨717555600, 3600, "CET"⟩, ⟨701830800, 7200, "CEST"⟩,
     ⟨686106000, 3600, "CET"⟩, ⟨670381200, 7200, "CEST"⟩, ⟨654656400, 3600, "CET"⟩,
     ⟨638326800, 7200, "CEST"⟩, ⟨622602000, 3600, "CET"⟩, ⟨606877200, 7200, "CEST"⟩,
     ⟨591152400, 3600, "CET"⟩, ⟨575427600, 7200, "CEST"⟩, ⟨559702800, 3600, "CET"⟩,
     ⟨543978000, 7200, "CEST"⟩, ⟨528253200, 3600, "CET"⟩, ⟨512528400, 7200, "CEST"⟩,
     ⟨496803600, 3600, "CET"⟩, ⟨481078800, 7200, "CEST"⟩, ⟨465354000, 3600, "CET"⟩,
     ⟨449024400, 7200, "CEST"⟩, ⟨433299600, 3600, "CET"⟩, ⟨417574800, 7200, "CEST"⟩,
     ⟨401850000, 3600, "CET"⟩, ⟨386125200, 7200, "CEST"⟩, ⟨370400400, 3600, "CET"⟩,
     ⟨354675600, 7200, "CEST"⟩, ⟨338950800, 3600, "CET"⟩, ⟨323830800, 7200, "CEST"⟩,
     ⟨307501200, 3600, "CET"⟩, ⟨291776400, 7200, "CEST"⟩, ⟨276051600, 3600, "CET"⟩,
     ⟨260326800, 7200, "CEST"⟩, ⟨243997200, 3600, "CET"⟩, ⟨228877200, 7200, "CEST"⟩,
     ⟨212540400, 3600, "CET"⟩, ⟨196819200, 7200, "CEST"⟩, ⟨-766623600, 3600, "CET"⟩,
     ⟨-781052400, 7200, "WEMT"⟩, ⟨-796266000, 3600, "WEST"⟩, ⟨-800071200, 7200, "WEMT"⟩,
     ⟨-812502000, 7200, "CEST"⟩, ⟨-828226800, 3600, "CET"⟩, ⟨-844556400, 7200, "CEST"⟩,
     ⟨-857257200, 3600, "CET"⟩, ⟨-932436000, 7200, "CEST"⟩, ⟨-942012000, 3600, "WEST"⟩,
     ⟨-950490000, 0, "WET"⟩, ⟨-969238800, 3600, "WEST"⟩, ⟨-986173200, 0, "WET"⟩,
     ⟨-1002502800, 3600, "WEST"⟩, ⟨-1017622800, 0, "WET"⟩, ⟨-1033347600, 3600, "WEST"⟩,
     ⟨-1049072400, 0, "WET"⟩, ⟨-1063587600, 3600, "WEST"⟩, ⟨-1080522000, 0, "WET"⟩,
     ⟨-1096851600, 3600, "WEST"⟩, ⟨-1111971600, 0, "WET"⟩, ⟨-1127696400, 3600, "WEST"⟩,
     ⟨-1143421200, 0, "WET"⟩, ⟨-1160355600, 3600, "WEST"⟩, ⟨-1175475600, 0, "WET"⟩,
     ⟨-1191200400, 3600, "WEST"⟩, ⟨-1206925200, 0, "WET"⟩, ⟨-1221440400, 3600, "WEST"⟩,
     ⟨-1238374800, 0, "WET"⟩, ⟨-1253494800, 3600, "WEST"⟩, ⟨-1269824400, 0, "WET"⟩,
     ⟨-1284339600, 3600, "WEST"⟩, ⟨-1301274000, 0, "WET"⟩, ⟨-1316394000, 3600, "WEST"⟩,
     ⟨-1333328400, 0, "WET"⟩, ⟨-1348448400, 3600, "WEST"⟩, ⟨-1364778000, 0, "WET"⟩,
     ⟨-1379293200, 3600, "WEST"⟩, ⟨-1396227600, 0, "WET"⟩, ⟨-1411952400, 3600, "WEST"⟩,
     ⟨-1427677200, 0, "WET"⟩, ⟨-1444006800, 3600, "WEST"⟩, ⟨-1459126800, 0, "WET"⟩,
     ⟨-1470618000, 3600, "WEST"⟩, ⟨-1490576400, 0, "WET"⟩, ⟨-1507510800, 3600, "WEST"⟩,
     ⟨-1520557200, 0, "WET"⟩, ⟨-1539997200, 3600, "WEST"⟩, ⟨-1552266000, 0, "WET"⟩,
     ⟨-1574038800, 3600, "WEST"⟩, ⟨-1585443600, 0, "WET"⟩, ⟨-1604278800, 3600, "WEST"⟩,
     ⟨-1616893200, 0, "WET"⟩, ⟨-1635123600, 3600, "WEST"⟩, ⟨-1648342800, 0, "WET"⟩,
     ⟨-1665363600, 3600, "WEST"⟩, ⟨-1680397200, 0, "WET"⟩, ⟨-1689814800, 3600, "WEST"⟩,
     ⟨-1855958961, 0, "WET"⟩, ⟨-2486592561, 561, "PMT"⟩]
  later := .seasonal ⟨3600, "CET"⟩ ⟨7200, "CEST"⟩ ⟨3, 5, 0, 7200⟩ ⟨10, 5, 0, 10800⟩

/-- `Europe/Rome`. -/
def rome : Region where
  name := "Europe/Rome"
  first := ⟨2996, "LMT"⟩
  changes :=
    [⟨828234000, 7200, "CEST"⟩, ⟨811904400, 3600, "CET"⟩, ⟨796179600, 7200, "CEST"⟩,
     ⟨780454800, 3600, "CET"⟩, ⟨764730000, 7200, "CEST"⟩, ⟨749005200, 3600, "CET"⟩,
     ⟨733280400, 7200, "CEST"⟩, ⟨717555600, 3600, "CET"⟩, ⟨701830800, 7200, "CEST"⟩,
     ⟨686106000, 3600, "CET"⟩, ⟨670381200, 7200, "CEST"⟩, ⟨654656400, 3600, "CET"⟩,
     ⟨638326800, 7200, "CEST"⟩, ⟨622602000, 3600, "CET"⟩, ⟨606877200, 7200, "CEST"⟩,
     ⟨591152400, 3600, "CET"⟩, ⟨575427600, 7200, "CEST"⟩, ⟨559702800, 3600, "CET"⟩,
     ⟨543978000, 7200, "CEST"⟩, ⟨528253200, 3600, "CET"⟩, ⟨512528400, 7200, "CEST"⟩,
     ⟨496803600, 3600, "CET"⟩, ⟨481078800, 7200, "CEST"⟩, ⟨465354000, 3600, "CET"⟩,
     ⟨449024400, 7200, "CEST"⟩, ⟨433299600, 3600, "CET"⟩, ⟨417574800, 7200, "CEST"⟩,
     ⟨401850000, 3600, "CET"⟩, ⟨386125200, 7200, "CEST"⟩, ⟨370400400, 3600, "CET"⟩,
     ⟨354675600, 7200, "CEST"⟩, ⟨338950800, 3600, "CET"⟩, ⟨323830800, 7200, "CEST"⟩,
     ⟨307494000, 3600, "CET"⟩, ⟨296607600, 7200, "CEST"⟩, ⟨276044400, 3600, "CET"⟩,
     ⟨265158000, 7200, "CEST"⟩, ⟨243990000, 3600, "CET"⟩, ⟨233103600, 7200, "CEST"⟩,
     ⟨212540400, 3600, "CET"⟩, ⟨202258800, 7200, "CEST"⟩, ⟨181090800, 3600, "CET"⟩,
     ⟨170809200, 7200, "CEST"⟩, ⟨149641200, 3600, "CET"⟩, ⟨138754800, 7200, "CEST"⟩,
     ⟨118191600, 3600, "CET"⟩, ⟨107910000, 7200, "CEST"⟩, ⟨86742000, 3600, "CET"⟩,
     ⟨75855600, 7200, "CEST"⟩, ⟨54687600, 3600, "CET"⟩, ⟨43801200, 7200, "CEST"⟩,
     ⟨23238000, 3600, "CET"⟩, ⟨12956400, 7200, "CEST"⟩, ⟨-8211600, 3600, "CET"⟩,
     ⟨-18493200, 7200, "CEST"⟩, ⟨-40266000, 3600, "CET"⟩, ⟨-50547600, 7200, "CEST"⟩,
     ⟨-71715600, 3600, "CET"⟩, ⟨-81997200, 7200, "CEST"⟩, ⟨-103168800, 3600, "CET"⟩,
     ⟨-114051600, 7200, "CEST"⟩, ⟨-670460400, 3600, "CET"⟩, ⟨-689209200, 7200, "CEST"⟩,
     ⟨-701917200, 3600, "CET"⟩, ⟨-719456400, 7200, "CEST"⟩, ⟨-733359600, 3600, "CET"⟩,
     ⟨-750898800, 7200, "CEST"⟩, ⟨-766717200, 3600, "CET"⟩, ⟨-781052400, 7200, "CEST"⟩,
     ⟨-798073200, 3600, "CET"⟩, ⟨-812502000, 7200, "CEST"⟩, ⟨-828226800, 3600, "CET"⟩,
     ⟨-844556400, 7200, "CEST"⟩, ⟨-857257200, 3600, "CET"⟩, ⟨-932432400, 7200, "CEST"⟩,
     ⟨-1555293600, 3600, "CET"⟩, ⟨-1571014800, 7200, "CEST"⟩, ⟨-1585533600, 3600, "CET"⟩,
     ⟨-1604278800, 7200, "CEST"⟩, ⟨-1616896800, 3600, "CET"⟩, ⟨-1635123600, 7200, "CEST"⟩,
     ⟨-1648951200, 3600, "CET"⟩, ⟨-1664758800, 7200, "CEST"⟩, ⟨-1680487200, 3600, "CET"⟩,
     ⟨-1690765200, 7200, "CEST"⟩, ⟨-2403565200, 3600, "CET"⟩, ⟨-3252098996, 2996, "RMT"⟩]
  later := .seasonal ⟨3600, "CET"⟩ ⟨7200, "CEST"⟩ ⟨3, 5, 0, 7200⟩ ⟨10, 5, 0, 10800⟩

/-- `Europe/Stockholm`. -/
def stockholm : Region := { berlin with name := "Europe/Stockholm" }

/-- `Europe/Warsaw`. -/
def warsaw : Region where
  name := "Europe/Warsaw"
  first := ⟨5040, "LMT"⟩
  changes :=
    [⟨828234000, 7200, "CEST"⟩, ⟨811904400, 3600, "CET"⟩, ⟨796179600, 7200, "CEST"⟩,
     ⟨780454800, 3600, "CET"⟩, ⟨764730000, 7200, "CEST"⟩, ⟨749005200, 3600, "CET"⟩,
     ⟨733280400, 7200, "CEST"⟩, ⟨717555600, 3600, "CET"⟩, ⟨701830800, 7200, "CEST"⟩,
     ⟨686106000, 3600, "CET"⟩, ⟨670381200, 7200, "CEST"⟩, ⟨654656400, 3600, "CET"⟩,
     ⟨638326800, 7200, "CEST"⟩, ⟨622602000, 3600, "CET"⟩, ⟨606877200, 7200, "CEST"⟩,
     ⟨591152400, 3600, "CET"⟩, ⟨575427600, 7200, "CEST"⟩, ⟨559699200, 3600, "CET"⟩,
     ⟨543974400, 7200, "CEST"⟩, ⟨528249600, 3600, "CET"⟩, ⟨512524800, 7200, "CEST"⟩,
     ⟨496800000, 3600, "CET"⟩, ⟨481075200, 7200, "CEST"⟩, ⟨465350400, 3600, "CET"⟩,
     ⟨449020800, 7200, "CEST"⟩, ⟨433296000, 3600, "CET"⟩, ⟨417571200, 7200, "CEST"⟩,
     ⟨401846400, 3600, "CET"⟩, ⟨386121600, 7200, "CEST"⟩, ⟨370396800, 3600, "CET"⟩,
     ⟨354672000, 7200, "CEST"⟩, ⟨338947200, 3600, "CET"⟩, ⟨323827200, 7200, "CEST"⟩,
     ⟨307497600, 3600, "CET"⟩, ⟨291772800, 7200, "CEST"⟩, ⟨276048000, 3600, "CET"⟩,
     ⟨260323200, 7200, "CEST"⟩, ⟨243993600, 3600, "CET"⟩, ⟨228873600, 7200, "CEST"⟩,
     ⟨-166060800, 3600, "CET"⟩, ⟨-176342400, 7200, "CEST"⟩, ⟨-197510400, 3600, "CET"⟩,
     ⟨-208396800, 7200, "CEST"⟩, ⟨-228960000, 3600, "CET"⟩, ⟨-239846400, 7200, "CEST"⟩,
     ⟨-260409600, 3600, "CET"⟩, ⟨-271296000, 7200, "CEST"⟩, ⟨-291859200, 3600, "CET"⟩,
     ⟨-307584000, 7200, "CEST"⟩, ⟨-323308800, 3600, "CET"⟩, ⟨-334195200, 7200, "CEST"⟩,
     ⟨-355363200, 3600, "CET"⟩, ⟨-371088000, 7200, "CEST"⟩, ⟨-386812800, 3600, "CET"⟩,
     ⟨-397094400, 7200, "CEST"⟩, ⟨-639010800, 3600, "CET"⟩, ⟨-654130800, 7200, "CEST"⟩,
     ⟨-670460400, 3600, "CET"⟩, ⟨-684975600, 7200, "CEST"⟩, ⟨-701910000, 3600, "CET"⟩,
     ⟨-715215600, 7200, "CEST"⟩, ⟨-733273200, 3600, "CET"⟩, ⟨-748486800, 7200, "CEST"⟩,
     ⟨-762660000, 3600, "CET"⟩, ⟨-778726800, 7200, "CEST"⟩, ⟨-796608000, 3600, "CET"⟩,
     ⟨-812502000, 7200, "CEST"⟩, ⟨-828226800, 3600, "CET"⟩, ⟨-844556400, 7200, "CEST"⟩,
     ⟨-857257200, 3600, "CET"⟩, ⟨-931734000, 7200, "CEST"⟩, ⟨-1501725600, 3600, "CET"⟩,
     ⟨-1587168000, 7200, "EET"⟩, ⟨-1600473600, 10800, "EEST"⟩, ⟨-1618700400, 7200, "EET"⟩,
     ⟨-1632006000, 7200, "CEST"⟩, ⟨-1650150000, 3600, "CET"⟩, ⟨-1663455600, 7200, "CEST"⟩,
     ⟨-1680483600, 3600, "CET"⟩, ⟨-1693706400, 7200, "CEST"⟩, ⟨-1717032240, 3600, "CET"⟩,
     ⟨-2840145840, 5040, "WMT"⟩]
  later := .seasonal ⟨3600, "CET"⟩ ⟨7200, "CEST"⟩ ⟨3, 5, 0, 7200⟩ ⟨10, 5, 0, 10800⟩

end RecurringEvents.Region
