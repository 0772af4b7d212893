import SchemaTypings.Console.Pictures

/-!
Flags: each is the two letters of a country, written with the letters that stand for regions.
-/

namespace SchemaTypings

namespace Flag

/-- The letter for regions of a lower-case letter. -/
def letter (c : CodePoint) : CodePoint :=
  (CodePoint.ofNat? (c.val - 97 + 0x1F1E6)).getD c

/-- The flag of a country that is written with two letters. -/
def ofCode (code : Text) : Text := code.map letter

/-- The countries and their letters. -/
def countries : Entries Text := Pictures.ofTable
  ["afghanistan af albania al algeria dz american_samoa as andorra ad angola ao anguilla ai",
   "antarctica aq antigua_&_barbuda ag argentina ar armenia am aruba aw ascension_island ac",
   "australia au austria at azerbaijan az bahamas bs bahrain bh bangladesh bd barbados bb",
   "belarus by belgium be belize bz benin bj bermuda bm bhutan bt bolivia bo",
   "bosnia_&_herzegovina ba botswana bw bouvet_island bv brazil br",
   "british_indian_ocean_territory io british_virgin_islands vg brunei bn bulgaria bg",
   "burkina_faso bf burundi bi cambodia kh cameroon cm canada ca canary_islands ic cape_verde cv",
   "caribbean_netherlands bq cayman_islands ky central_african_republic cf ceuta_&_melilla ea",
   "chad td chile cl china cn christmas_island cx clipperton_island cp colombia co comoros km",
   "cook_islands ck costa_rica cr croatia hr cuba cu curaçao cw cyprus cy côte_d’ivoire ci",
   "denmark dk diego_garcia dg djibouti dj dominica dm dominican_republic do ecuador ec egypt eg",
   "el_salvador sv equatorial_guinea gq eritrea er estonia ee ethiopia et european_union eu",
   "falkland_islands fk faroe_islands fo fiji fj finland fi france fr french_guiana gf",
   "french_polynesia pf french_southern_territories tf gabon ga gambia gm georgia ge germany de",
   "ghana gh gibraltar gi greece gr greenland gl grenada gd guadeloupe gp guam gu guatemala gt",
   "guernsey gg guinea gn guyana gy haiti ht heard_&_mcdonald_islands hm honduras hn hungary hu",
   "iceland is india in indonesia id iran ir iraq iq ireland ie isle_of_man im israel il",
   "italy it jamaica jm jersey je jordan jo kazakhstan kz kenya ke kiribati ki kosovo xk",
   "kuwait kw kyrgyzstan kg laos la latvia lv lebanon lb lesotho ls liberia lr libya ly",
   "liechtenstein li lithuania lt luxembourg lu macedonia mk madagascar mg malawi mw malaysia my",
   "maldives mv mali ml malta mt marshall_islands mh martinique mq mauritania mr mauritius mu",
   "mayotte yt mexico mx micronesia fm moldova md monaco mc mongolia mn montenegro me",
   "montserrat ms morocco ma mozambique mz namibia na nauru nr nepal np netherlands nl",
   "new_caledonia nc new_zealand nz nicaragua ni niger ne nigeria ng niue nu norfolk_island nf",
   "north_korea kp northern_mariana_islands mp norway no oman om pakistan pk palau pw",
   "palestinian_territories ps panama pa papua_new_guinea pg paraguay py peru pe philippines ph",
   "pitcairn_islands pn poland pl portugal pt puerto_rico pr qatar qa romania ro russia ru",
   "rwanda rw réunion re samoa ws san_marino sm saudi_arabia sa senegal sn serbia rs",
   "seychelles sc sierra_leone sl singapore sg sint_maarten sx slovakia sk slovenia si",
   "solomon_islands sb somalia so south_africa za south_georgia_&_south_sandwich_islands gs",
   "south_korea kr south_sudan ss spain es sri_lanka lk st._barthélemy bl st._helena sh",
   "st._kitts_&_nevis kn st._lucia lc st._martin mf st._pierre_&_miquelon pm",
   "st._vincent_&_grenadines vc sudan sd suriname sr svalbard_&_jan_mayen sj swaziland sz",
   "sweden se switzerland ch syria sy são_tomé_&_príncipe st taiwan tw tajikistan tj tanzania tz",
   "thailand th togo tg tokelau tk tonga to trinidad_&_tobago tt tristan_da_cunha ta tunisia tn",
   "turkmenistan tm turks_&_caicos_islands tc tuvalu tv u.s._outlying_islands um",
   "u.s._virgin_islands vi uganda ug ukraine ua united_arab_emirates ae united_kingdom gb",
   "united_states us uruguay uy uzbekistan uz vanuatu vu vatican_city va venezuela ve vietnam vn",
   "wallis_&_futuna wf western_sahara eh yemen ye zambia zm zimbabwe zw åland_islands ax"]

/-- More names of countries, which stand for a flag on their own. -/
def spelled : Entries Text := Pictures.ofTable
  ["cocos_(keeling)_islands cc congo_-_brazzaville cg congo_-_kinshasa cd czechia cz",
   "guinea-bissau gw hong_kong_sar_china hk macau_sar_china mo myanmar_(burma) mm timor-leste tl",
   "united_nations un"]

/-- More names of countries, which stand for a flag only where it is called a flag. -/
def called : Entries Text := Pictures.ofTable
  ["cocos__islands cc congo____brazzaville cg congo____kinshasa cd czech_republic cz",
   "guinea__bissau gw hong_kong hk japan jp macau mo myanmar mm timor__leste tl turkey tr"]

/-- What a flag is called before the name of its country. -/
def title : Text := "flag_for_"

/-- What a single letter for regions is called before that letter. -/
def letterTitles : List Text := ["regional_indicator_symbol_letter_", "regional_indicator_"]

/-- The letter for regions of a name. -/
def letterNamed? (name : Text) : Option Text := do
  let title ← letterTitles.find? fun t => Text.startsWith name t
  match name.drop title.length with
  | [c] => if c.isAsciiLower then some [letter c] else none
  | _ => none

/-- The flag of a name. -/
def named? (name : Text) : Option Text :=
  let code :=
    if Text.startsWith name title then (countries ++ called).get? (name.drop title.length)
    else (countries ++ spelled).get? name
  (code.map ofCode).or (letterNamed? name)

end Flag

end SchemaTypings
