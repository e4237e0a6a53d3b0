import NuzlockeSolver.Engine.State

/-!
# Enumeration values of the AI

The raw integers and the move and ability sets that the AI scorer reads.
-/

namespace NuzlockeSolver

namespace Engine

def moveNone : Int32 := 0
def movePayback : Int32 := 371
def moveBoltBeak : Int32 := 754
def moveFishiousRend : Int32 := 755
def moveTripleAxel : Int32 := 813
def moveRollout : Int32 := 205
def moveSonicBoom : Int32 := 49
def moveDragonRage : Int32 := 82
def moveSeismicToss : Int32 := 69
def moveNightShade : Int32 := 101
def moveSuperFang : Int32 := 162
def moveNatureSMadness : Int32 := 717
def movePsywave : Int32 := 149
def moveVenoshock : Int32 := 474
def moveBelch : Int32 := 562
def moveExplosion : Int32 := 153
def moveSelfDestruct : Int32 := 120
def moveFinalGambit : Int32 := 515
def moveMeteorBeam : Int32 := 800
def moveRelicSong : Int32 := 547
def moveFutureSight : Int32 := 248
def moveWaterShuriken : Int32 := 594
def moveStruggle : Int32 := 165
def moveOverheat : Int32 := 315
def moveLeafStorm : Int32 := 437
def moveSuperpower : Int32 := 276
def moveFakeOut : Int32 := 252
def moveFirstImpression : Int32 := 660
def moveFellStinger : Int32 := 565
def moveAcidSpray : Int32 := 491
def moveGrassyGlide : Int32 := 803
def moveSuckerPunch : Int32 := 389
def movePursuit : Int32 := 228
def moveFlameCharge : Int32 := 488
def moveSmackDown : Int32 := 479
def moveStealthRock : Int32 := 446
def moveSpikes : Int32 := 191
def moveToxicSpikes : Int32 := 390
def moveStickyWeb : Int32 := 564
def moveLightScreen : Int32 := 113
def moveRest : Int32 := 156
def moveSubstitute : Int32 := 164
def moveBellyDrum : Int32 := 187
def moveShellSmash : Int32 := 504
def moveFocusEnergy : Int32 := 116
def moveLaserFocus : Int32 := 673
def moveNastyPlot : Int32 := 417
def moveTailGlow : Int32 := 294
def moveWorkUp : Int32 := 526
def moveCoaching : Int32 := 811
def moveTailwind : Int32 := 366
def moveTrickRoom : Int32 := 433
def moveRolePlay : Int32 := 272
def moveImprison : Int32 := 286
def moveSleepTalk : Int32 := 214
def moveLeechSeed : Int32 := 73
def moveYawn : Int32 := 281
def moveHypnosis : Int32 := 95
def moveSing : Int32 := 47
def moveGrassWhistle : Int32 := 320
def moveDarkVoid : Int32 := 464
def moveScaryFace : Int32 := 184
def moveHelpingHand : Int32 := 270
def moveFollowMe : Int32 := 266
def moveTaunt : Int32 := 269
def moveBatonPass : Int32 := 226
def moveMemento : Int32 := 262
def moveEncore : Int32 := 227
def moveCounter : Int32 := 68
def moveMirrorCoat : Int32 := 243
def moveMagnetRise : Int32 := 393
def moveDefog : Int32 := 432
def moveTropKick : Int32 := 688
def moveBreakingSwipe : Int32 := 784
def moveWillOWisp : Int32 := 261
def moveHex : Int32 := 506
def moveDreamEater : Int32 := 138
def moveNightmare : Int32 := 171
def moveSnore : Int32 := 173
def abShadowTag : Int32 := 23
def abMagnetPull : Int32 := 42
def abArenaTrap : Int32 := 71
def abMagmaArmor : Int32 := 40
def abBattleArmor : Int32 := 4
def abShellArmor : Int32 := 75
def abSuperLuck : Int32 := 105
def abMerciless : Int32 := 196
def abParentalBond : Int32 := 185
def abQuickFeet : Int32 := 95
def abSwiftSwim : Int32 := 33
def abChlorophyll : Int32 := 34
def abSandRush : Int32 := 146
def abSlushRush : Int32 := 202
def abSurgeSurfer : Int32 := 207
def abContrary : Int32 := 126
def abEarlyBird : Int32 := 48
def abShedSkin : Int32 := 61
def abHydration : Int32 := 93
def abSturdy : Int32 := 5
def abLimber : Int32 := 7
def abCorrosion : Int32 := 212
def abInnerFocus : Int32 := 39
def abShieldDust : Int32 := 19
def abInsomnia : Int32 := 15
def abVitalSpirit : Int32 := 72
def abSweetVeil : Int32 := 175
def abTruant : Int32 := 54
def abOvercoat : Int32 := 142
def itemScopeLens : Int32 := 232
def itemRazorClaw : Int32 := 326
def itemLeek : Int32 := 259
def itemShedShell : Int32 := 295
def itemLaggingTail : Int32 := 279
def itemChoiceScarf : Int32 := 287
def itemPowerHerb : Int32 := 271
def itemLumBerry : Int32 := 157
def itemChestoBerry : Int32 := 150
def itemSitrusBerry : Int32 := 158
def itemFocusSash : Int32 := 275
def itemLightClay : Int32 := 269
def itemSafetyGoggles : Int32 := 650
def itemTerrainExtender : Int32 := 879
def statusFreeze : Int32 := 2
def statusParalysis : Int32 := 3
def statusSleep : Int32 := 6
def volatileLeechSeeded : Int32 := 2
def volatileCursed : Int32 := 4
def volatileEncoreActive : Int32 := 8
def volatileTauntActive : Int32 := 16
def volatileRecharging : Int32 := 256
def volatileLockedMove : Int32 := 512
def volatileSubstitute : Int32 := 4096
def volatilePerishSong : Int32 := 16384
def volatileChoiceLocked : Int32 := 262144
def volatileUnburden : Int32 := 524288
def volatileAttracted : Int32 := 8388608
def volatileTruantLoafing : Int32 := 16777216
def veBound : Int32 := 4
def veDrowsy : Int32 := 20
def veTrapped : Int32 := 22
def veLaserFocus : Int32 := 25
def scStealthRock : Int32 := 4
def scSpikes1 : Int32 := 5
def scSpikes2 : Int32 := 6
def scSpikes3 : Int32 := 7
def scToxicSpikes1 : Int32 := 8
def scToxicSpikes2 : Int32 := 9
def scStickyWeb : Int32 := 10
def scTailwind : Int32 := 11
def pwTrickRoom : Int32 := 1
def tagDamage : Int32 := 1
def tagSetup : Int32 := 2
def tagRecovery : Int32 := 4
def tagHazard : Int32 := 32
def tagScreen : Int32 := 64
def tagPowder : Int32 := 16384
def catSpecial : Int32 := 1
def targetNormal : Int32 := 0
def targetSelf : Int32 := 1
def targetAny : Int32 := 5
def targetRandomNormal : Int32 := 9
def speciesGreninjaAsh : Int32 := 1113
def speciesMeloettaPirouette : Int32 := 1107
def speciesDitto : Int32 := 132
def speciesWynaut : Int32 := 360
def speciesWobbuffet : Int32 := 202

def trappingMoves : List Int32 := [250, 83, 328, 463, 611, 128, 35, 20]

def protectMoves : List Int32 := [182, 197, 455, 469, 501, 588, 596, 661, 792]

def weatherRecoveryMoves : List Int32 := [234, 235, 236, 659]

def recoveryMoveSet : List Int32 := [105, 135, 303, 355, 456, 659, 668]

def paralysisMoves : List Int32 := [78, 86, 137, 192, 609]

def poisonInflictMoves : List Int32 := [77, 92, 139]

def speedSetupMoves : List Int32 := [97, 397, 475]

def offensiveSetupMoves : List Int32 := [14, 96, 159, 294, 336, 349, 417, 468, 508, 526]

def defensiveSetupMoves : List Int32 := [106, 112, 151, 254, 322, 334, 538]

def terrainMoves : List Int32 := [580, 581, 604, 678]

def moxieAbilities : List Int32 := [153, 224, 264, 265]

def highCritMoves : List Int32 :=
  [2, 13, 75, 143, 152, 163, 177, 238, 299, 314, 342, 348, 400, 421, 427, 440, 444, 454, 460, 529]

def speedReductionMoves : List Int32 := [196, 317, 341, 490, 523, 527]

def statReductionDamageMoves : List Int32 := [555, 595, 688, 784, 806]

def statReductionAbilities : List Int32 := [29, 73, 126]

def rolePlayValuableAbilities : List Int32 := [2, 3, 37, 45, 70, 74, 117]

def unawareSetupExceptions : List Int32 := [14, 336, 612]

def gravityBlocked : List Int32 := [19, 26, 136, 150, 340, 393, 477, 507]

def leekSpecies : List Int32 := [83, 865, 979]

def weatherMoveWeathers : List (Int32 × Int32) := [(201, 3), (240, 2), (241, 1), (258, 4)]

end Engine

end NuzlockeSolver
