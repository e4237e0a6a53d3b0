import NuzlockeSolver.Engine.State

/-!
# Enumeration values of the engine

The raw integers behind the names, and the tables the damage formula looks things up in.
-/

namespace NuzlockeSolver

namespace Engine

def abAirLock : Int32 := 76
def abCloudNine : Int32 := 13
def abSkillLink : Int32 := 92
def abBattleBond : Int32 := 210
def abThickFat : Int32 := 47
def abHustle : Int32 := 55
def abGuts : Int32 := 62
def abMarvelScale : Int32 := 63
def abOvergrow : Int32 := 65
def abBlaze : Int32 := 66
def abTorrent : Int32 := 67
def abSwarm : Int32 := 68
def abAdaptability : Int32 := 91
def abSniper : Int32 := 97
def abTechnician : Int32 := 101
def abSandForce : Int32 := 159
def abScrappy : Int32 := 113
def abHugePower : Int32 := 37
def abPurePower : Int32 := 74
def abNormalize : Int32 := 96
def abPixilate : Int32 := 182
def abRefrigerate : Int32 := 174
def abAerilate : Int32 := 184
def abGalvanize : Int32 := 206
def abLiquidVoice : Int32 := 204
def abUnaware : Int32 := 109
def abSlowStart : Int32 := 112
def abToxicBoost : Int32 := 137
def abGorillaTactics : Int32 := 255
def abSolarPower : Int32 := 94
def abFlowerGift : Int32 := 122
def abPlus : Int32 := 57
def abMinus : Int32 := 58
def abDefeatist : Int32 := 129
def abFurCoat : Int32 := 169
def abGrassPelt : Int32 := 179
def abStrongJaw : Int32 := 173
def abMegaLauncher : Int32 := 178
def abPunkRock : Int32 := 244
def abSheerForce : Int32 := 125
def abIronFist : Int32 := 89
def abSharpness : Int32 := 292
def abToughClaws : Int32 := 181
def abReckless : Int32 := 120
def abWaterBubble : Int32 := 199
def abSteelySpirit : Int32 := 252
def abSteelworker : Int32 := 200
def abTransistor : Int32 := 262
def abDragonSMaw : Int32 := 263
def abPowerSpot : Int32 := 249
def abBattery : Int32 := 217
def abTintedLens : Int32 := 110
def abNeuroforce : Int32 := 233
def abFilter : Int32 := 111
def abSolidRock : Int32 := 116
def abPrismArmor : Int32 := 232
def abDarkAura : Int32 := 186
def abFairyAura : Int32 := 187
def abAuraBreak : Int32 := 188
def abHeatproof : Int32 := 85
def abDrySkin : Int32 := 87
def abMultiscale : Int32 := 136
def abShadowShield : Int32 := 231
def abIceScales : Int32 := 246
def abFluffy : Int32 := 218
def abLongReach : Int32 := 203
def abAnalytic : Int32 := 148
def abFriendGuard : Int32 := 132
def abInfiltrator : Int32 := 151
def abLevitate : Int32 := 26
def abStickyHold : Int32 := 60

def itemNone : Int32 := 0
def itemIronBall : Int32 := 278
def itemAirBalloon : Int32 := 541
def itemLifeOrb : Int32 := 270
def itemExpertBelt : Int32 := 268
def itemRingTarget : Int32 := 543
def itemProtectivePads : Int32 := 880
def itemWiseGlasses : Int32 := 267
def itemMuscleBand : Int32 := 266
def itemGriseousOrb : Int32 := 112
def itemGriseousCore : Int32 := 1779
def itemLightBall : Int32 := 236
def itemThickClub : Int32 := 260
def itemChoiceBand : Int32 := 220
def itemChoiceSpecs : Int32 := 297
def itemEviolite : Int32 := 538
def itemAssaultVest : Int32 := 640

def typeNormal : Int32 := 0
def typeFire : Int32 := 1
def typeWater : Int32 := 2
def typeElectric : Int32 := 3
def typeGrass : Int32 := 4
def typeIce : Int32 := 5
def typeFighting : Int32 := 6
def typePoison : Int32 := 7
def typeGround : Int32 := 8
def typeFlying : Int32 := 9
def typePsychic : Int32 := 10
def typeBug : Int32 := 11
def typeRock : Int32 := 12
def typeGhost : Int32 := 13
def typeDragon : Int32 := 14
def typeDark : Int32 := 15
def typeSteel : Int32 := 16
def typeFairy : Int32 := 17
def typeTypeless : Int32 := 18

def weatherNone : Int32 := 0
def weatherSunny : Int32 := 1
def weatherRainy : Int32 := 2
def weatherSandstorm : Int32 := 3
def weatherHail : Int32 := 4
def weatherHeavyRain : Int32 := 5
def weatherHarshSun : Int32 := 6
def weatherStrongWind : Int32 := 7

def terrainNone : Int32 := 0
def terrainElectric : Int32 := 1
def terrainGrassy : Int32 := 2
def terrainPsychic : Int32 := 3
def terrainMisty : Int32 := 4

def pwGravity : Int32 := 2
def pwMagicRoom : Int32 := 3
def pwWonderRoom : Int32 := 4

def scReflect : Int32 := 1
def scLightScreen : Int32 := 2
def scAuroraVeil : Int32 := 3

def statusNone : Int32 := 0
def statusBurn : Int32 := 1
def statusPoison : Int32 := 4
def statusToxic : Int32 := 5

def volatileFlashFire : Int32 := 1048576
def volatileHelpingHand : Int32 := 33554432
def volatileIdentified : Int32 := 134217728

def veGrounded : Int32 := 24
def veSemiInvulnerable : Int32 := 27
def veChargingMove : Int32 := 34
def veMagnetRise : Int32 := 8
def veTelekinesis : Int32 := 29

def catPhysical : Int32 := 0
def catStatus : Int32 := 2

def targetAllAdjacentFoes : Int32 := 2
def targetAllAdjacent : Int32 := 3

def tagSound : Int32 := 256
def tagBiting : Int32 := 2048
def tagPulse : Int32 := 1024
def tagPunching : Int32 := 4096
def tagSlicing : Int32 := 8192
def tagContact : Int32 := 128

def formatDoubles : Int32 := 1

def moveEarthquake : Int32 := 89
def moveHiddenPower : Int32 := 237
def moveNaturalGift : Int32 := 363
def moveWeatherBall : Int32 := 311
def moveTerrainPulse : Int32 := 805
def moveAuraWheel : Int32 := 783
def moveMultiAttack : Int32 := 718
def moveRevelationDance : Int32 := 686
def moveKnockOff : Int32 := 282
def moveBodyPress : Int32 := 776
def moveFoulPlay : Int32 := 492
def moveShellSideArm : Int32 := 801
def movePhotonGeyser : Int32 := 722
def movePsyshock : Int32 := 473
def movePsystrike : Int32 := 540
def moveSecretSword : Int32 := 548
def moveFlyingPress : Int32 := 560
def moveFreezeDry : Int32 := 573
def moveThousandArrows : Int32 := 614
def moveFacade : Int32 := 263
def moveBulldoze : Int32 := 523
def moveMagnitude : Int32 := 222
def moveMistyExplosion : Int32 := 802

def speciesMorpekoHangry : Int32 := 1226
def speciesGiratina : Int32 := 487
def speciesGiratinaOrigin : Int32 := 1071

def moldBreakerAbilities : List Int32 :=
  [104, 163, 164]

def thickClubSpecies : List Int32 :=
  [104, 105, 973]

def pikachuSpecies : List Int32 :=
  [25, 1009, 1010, 1011, 1012, 1013, 1014, 1015, 1016, 1017, 1018, 1019, 1020, 1021, 1022]

def silvallySpecies : List Int32 :=
  [773, 1176, 1177, 1178, 1179, 1180, 1181, 1182, 1183, 1184, 1185, 1186, 1187, 1188, 1189, 1190,
   1191, 1192]

def memoryItems : List Int32 :=
  [901, 902, 903, 904, 905, 906, 907, 908, 909, 910, 911, 912, 913, 914, 915, 916, 917]

def megaItems : List Int32 :=
  [40, 41, 573, 575, 576, 577, 578, 579, 580, 582, 583, 584, 585, 586, 587, 588, 589, 590, 591,
   592, 594, 596, 598, 599, 602, 605, 607, 608, 612, 613, 614, 615, 616, 617, 618, 619, 620, 621,
   622, 623, 625, 626, 627, 628, 629, 630]

def ignoreAbilityMoves : List Int32 :=
  [713, 714, 722]

def ignoreDefBoostMoves : List Int32 :=
  [498, 533, 663]

def recklessMoves : List Int32 :=
  [26, 36, 38, 66, 136, 344, 394, 413, 457, 528]

def unevolvedSpecies : List Int32 :=
  [1, 2, 4, 5, 7, 8, 10, 11, 13, 14, 16, 17, 19, 21, 23, 25, 27, 29, 30, 32, 33, 35, 37, 39, 41,
   42, 43, 44, 46, 48, 50, 52, 54, 56, 58, 60, 61, 63, 64, 66, 67, 69, 70, 72, 74, 75, 77, 79, 81,
   82, 83, 84, 86, 88, 90, 92, 93, 95, 96, 98, 100, 102, 104, 108, 109, 111, 112, 113, 114, 116,
   117, 118, 120, 123, 127, 129, 131, 133, 137, 138, 140, 142, 147, 148, 152, 153, 155, 156, 158,
   159, 161, 163, 165, 167, 170, 172, 173, 174, 175, 176, 177, 179, 180, 183, 187, 188, 190, 191,
   193, 194, 200, 203, 204, 206, 207, 209, 211, 213, 214, 215, 216, 218, 220, 221, 222, 223, 225,
   228, 231, 233, 234, 236, 238, 239, 240, 241, 246, 247, 252, 253, 255, 256, 258, 259, 261, 263,
   265, 266, 268, 270, 271, 273, 274, 276, 278, 280, 281, 283, 285, 287, 288, 290, 293, 294, 296,
   298, 299, 300, 302, 303, 304, 305, 307, 309, 311, 312, 313, 314, 315, 316, 318, 320, 322, 325,
   327, 328, 329, 331, 333, 335, 336, 337, 338, 339, 341, 343, 345, 347, 349, 351, 352, 353, 355,
   356, 357, 358, 359, 361, 363, 364, 366, 369, 370, 371, 372, 374, 375, 387, 388, 390, 391, 393,
   394, 396, 397, 399, 401, 403, 404, 406, 408, 410, 412, 415, 417, 418, 420, 422, 425, 427, 431,
   433, 434, 436, 438, 439, 440, 441, 442, 443, 444, 446, 447, 449, 451, 453, 455, 456, 458, 459,
   479, 495, 496, 498, 499, 501, 502, 504, 506, 507, 509, 519, 520, 522, 524, 525, 527, 529, 532,
   533, 535, 536, 538, 539, 540, 541, 543, 544, 546, 548, 550, 551, 552, 554, 556, 557, 558, 559,
   561, 562, 564, 566, 568, 570, 572, 574, 575, 577, 578, 580, 582, 583, 585, 587, 588, 590, 592,
   594, 595, 596, 597, 599, 600, 602, 603, 605, 607, 608, 610, 611, 613, 615, 616, 618, 619, 621,
   622, 624, 625, 626, 627, 629, 631, 632, 633, 634, 636, 637, 650, 651, 653, 654, 656, 657, 661,
   662, 664, 665, 667, 670, 672, 674, 677, 679, 680, 686, 688, 689, 690, 692, 694, 696, 698, 701,
   702, 703, 704, 705, 707, 708, 710, 712, 714, 722, 723, 725, 726, 728, 729, 731, 732, 734, 736,
   737, 742, 744, 746, 747, 749, 751, 753, 755, 757, 759, 761, 762, 767, 769, 775, 776, 777, 778,
   779, 780, 781, 782, 783, 810, 811, 813, 814, 816, 817, 819, 821, 822, 824, 825, 840, 843, 845,
   846, 848, 850, 851, 852, 854, 856, 857, 859, 860, 868, 870, 871, 872, 875, 876, 877, 878, 880,
   881, 882, 883, 885, 886, 956, 959, 961, 963, 965, 967, 968, 970, 974, 975, 977, 979, 986, 987,
   989, 991, 992, 993, 995, 998, 999, 1002, 1005, 1009, 1010, 1011, 1012, 1013, 1014, 1015, 1016,
   1017, 1018, 1019, 1020, 1021, 1022, 1023]

def explosionMoveIds : List Int32 := [120, 153, 720, 802]

def naturalGiftTable : List (Int32 × Int32 × Int) :=
  [(149, 1, 60), (150, 2, 60), (151, 3, 60), (152, 4, 60), (153, 5, 60), (154, 6, 60),
   (155, 7, 60), (156, 8, 60), (157, 9, 80), (158, 10, 80), (159, 1, 80), (160, 2, 80),
   (161, 4, 80), (162, 14, 80), (163, 15, 80), (184, 1, 80), (185, 2, 80), (186, 3, 80),
   (187, 4, 80), (188, 5, 80), (189, 6, 80), (190, 7, 80), (191, 8, 80), (192, 9, 80),
   (193, 10, 80), (194, 11, 80), (195, 12, 80), (196, 13, 80), (197, 14, 80), (198, 15, 80),
   (199, 16, 80), (200, 0, 80), (201, 4, 100), (202, 5, 100), (203, 6, 100), (204, 7, 100),
   (205, 8, 100), (206, 9, 100), (207, 10, 100), (208, 11, 100), (209, 12, 100), (210, 13, 100),
   (211, 14, 100), (212, 15, 100), (686, 17, 80), (687, 17, 100), (688, 15, 100)]

def typeBoostMap : List (Int32 × Int32) :=
  [(222, 11), (233, 16), (235, 14), (237, 8), (238, 12), (239, 4), (240, 15), (241, 6), (242, 3),
   (243, 2), (244, 9), (245, 7), (246, 5), (247, 13), (248, 10), (249, 1), (250, 14), (251, 0),
   (298, 1), (299, 2), (300, 3), (301, 4), (302, 5), (303, 6), (304, 7), (305, 8), (306, 9),
   (307, 10), (308, 11), (309, 12), (310, 13), (311, 14), (311, 14), (312, 15), (313, 16),
   (644, 17), (901, 1), (902, 2), (903, 4), (904, 3), (905, 5), (906, 6), (907, 7), (908, 8),
   (909, 9), (910, 10), (911, 11), (912, 12), (913, 13), (914, 14), (915, 15), (916, 16),
   (917, 17), (2401, 17)]

def tbCount : Nat := 52

def gemMap : List (Int32 × Int32) :=
  [(564, 0), (4001, 1), (4002, 2), (4003, 4), (4004, 3), (4005, 5), (4006, 6), (4007, 7),
   (4008, 8), (4009, 9), (4010, 10), (4011, 11), (4012, 12), (4013, 13), (4014, 14), (4015, 15),
   (4016, 16), (4017, 17)]

def hpTypeTable : List Int32 :=
  [typeFighting, typeFlying, typePoison, typeGround, typeRock, typeBug, typeGhost, typeSteel,
   typeFire, typeWater, typeGrass, typeElectric, typePsychic, typeIce, typeDragon, typeDark]

def typeChart : List (List Nat) :=
  [[2, 2, 2, 2, 2, 2, 2, 2, 2, 2, 2, 2, 1, 0, 2, 2, 1, 2, 2],
   [2, 1, 1, 2, 4, 4, 2, 2, 2, 2, 2, 4, 1, 2, 1, 2, 4, 2, 2],
   [2, 4, 1, 2, 1, 2, 2, 2, 4, 2, 2, 2, 4, 2, 1, 2, 2, 2, 2],
   [2, 2, 4, 1, 1, 2, 2, 2, 0, 4, 2, 2, 2, 2, 1, 2, 2, 2, 2],
   [2, 1, 4, 2, 1, 2, 2, 1, 4, 1, 2, 1, 4, 2, 1, 2, 1, 2, 2],
   [2, 1, 1, 2, 4, 1, 2, 2, 4, 4, 2, 2, 2, 2, 4, 2, 1, 2, 2],
   [4, 2, 2, 2, 2, 4, 2, 1, 2, 1, 1, 1, 4, 0, 2, 4, 4, 1, 2],
   [2, 2, 2, 2, 4, 2, 2, 1, 1, 2, 2, 2, 1, 1, 2, 2, 0, 4, 2],
   [2, 4, 2, 4, 1, 2, 2, 4, 2, 0, 2, 1, 4, 2, 2, 2, 4, 2, 2],
   [2, 2, 2, 1, 4, 2, 4, 2, 2, 2, 2, 4, 1, 2, 2, 2, 1, 2, 2],
   [2, 2, 2, 2, 2, 2, 4, 4, 2, 2, 1, 2, 2, 2, 2, 0, 1, 2, 2],
   [2, 1, 2, 2, 4, 2, 1, 1, 2, 1, 4, 2, 2, 1, 2, 4, 1, 1, 2],
   [2, 4, 2, 2, 2, 4, 1, 2, 1, 4, 2, 4, 2, 2, 2, 2, 1, 2, 2],
   [0, 2, 2, 2, 2, 2, 2, 2, 2, 2, 4, 2, 2, 4, 2, 1, 2, 2, 2],
   [2, 2, 2, 2, 2, 2, 2, 2, 2, 2, 2, 2, 2, 2, 4, 2, 1, 0, 2],
   [2, 2, 2, 2, 2, 2, 1, 2, 2, 2, 4, 2, 2, 4, 2, 1, 2, 1, 2],
   [2, 1, 1, 1, 2, 4, 2, 2, 2, 2, 2, 2, 4, 2, 2, 2, 1, 4, 2],
   [2, 1, 2, 2, 2, 2, 4, 1, 2, 2, 2, 2, 2, 2, 4, 4, 1, 2, 2],
   [2, 2, 2, 2, 2, 2, 2, 2, 2, 2, 2, 2, 2, 2, 2, 2, 2, 2, 2]]

end Engine

end NuzlockeSolver
